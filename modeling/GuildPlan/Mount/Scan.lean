import GuildPlan.Failure
import GuildPlan.Mount.Table
import GuildPlan.Mount.Tree

/-
  Mounting what lies beside an entry script in a directory tree.

  The entry is mounted under its name whatever its extension is, and may be reached through
  links. Below its directory every file with a script extension is mounted and every
  directory recorded; links found there are passed over.
-/
namespace GuildPlan.MountTable
variable {α : Type}

/-- Takes one node below the root into the table, unless its path is taken. -/
def mount (t : MountTable α) (way : Way) (n : Node α) : MountTable α :=
  let path := "/".intercalate way
  match n with
  | .directory => { t with directories := t.directories.add path }
  | .file body =>
    if Path.hasScriptExtension path && !t.files.contains path then
      { t with files := t.files.insert path body }
    else t
  | .link _ => t

/-- The table of what lies beside the entry. -/
def scan (tree : Tree α) (entry : String) : Except Failure (MountTable α) :=
  match tree.read? entry, Path.fileName? entry with
  | some body, some name =>
    let root := Path.directory entry
    let beside := ((tree.locate? root).map tree.below).getD []
    .ok (beside.foldl (fun t (way, n) => t.mount way n)
      { root, entry := name, files := (∅ : KeyMap α).insert name body })
  | _, _ => .error (.missingEntry entry)

end GuildPlan.MountTable
