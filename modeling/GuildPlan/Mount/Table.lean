import GuildPlan.KeyMap
import GuildPlan.Mount.Path

/-
  Mount tables: an entry script with the files and directories beside it.

  Files are known by their paths below the entry's directory. What a file holds is never
  looked at, so the table works for any kind of content.
-/
namespace GuildPlan

structure MountTable (α : Type) where
  /-- The directory of the entry. -/
  root : String := "."
  /-- The entry's path below the root. -/
  entry : String
  directories : KeySet := ∅
  files : KeyMap α := ∅

namespace MountTable
variable {α β : Type}

/-- The entry's path from where the root's path starts. -/
def entryPath (t : MountTable α) : String := Path.join t.root t.entry

def get? (t : MountTable α) (path : String) : Option α := t.files.get? path

def entrySource? (t : MountTable α) : Option α := t.get? t.entry

/-- The same table with other contents. -/
def map (f : α → β) (t : MountTable α) : MountTable β := { t with files := t.files.map f }

/-- What comes before each slash of a path. -/
def prefixes : List Char → List (List Char)
  | [] => []
  | c :: cs =>
    let rest := (prefixes cs).map (c :: ·)
    if c = '/' then [] :: rest else rest

/-- The directories above a path. -/
def parents (path : String) : List String := (prefixes path.toList).map String.ofList

/-- The table of given files and of the directories above them; of several files with one
path the last counts. -/
def ofSources (entry : String) (sources : List (String × α)) : MountTable α where
  entry
  directories := (sources.flatMap fun s => parents s.1).foldl KeySet.add ∅
  files := KeyMap.ofList sources

/-- A module name without the `./` that it may begin with, any number of times. -/
def withoutDot : List Char → List Char
  | '.' :: '/' :: rest => withoutDot rest
  | name => name

/-- The paths at which a module name is looked for, in order. A name with a script
extension is a path; in any other name dots stand for slashes. -/
def candidates (name : String) : List String :=
  let name := withoutDot name.toList
  if Path.hasScriptExtension (String.ofList name) then [String.ofList name]
  else
    let base := String.ofList (name.map fun c => if c = '.' then '/' else c)
    Path.scriptExtensions.map (base ++ "." ++ ·) ++
      Path.scriptExtensions.map (base ++ "/init." ++ ·)

/-- The file that a module name denotes, with its path. -/
def resolve? (t : MountTable α) (name : String) : Option (String × α) :=
  (candidates name).findSome? fun path => (t.get? path).map (path, ·)

end MountTable
end GuildPlan
