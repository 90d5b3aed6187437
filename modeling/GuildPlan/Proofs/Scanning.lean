import GuildPlan.Mount.Scan
import GuildPlan.Proofs.KeyMap
import GuildPlan.Proofs.Paths
import Mathlib.Data.List.Basic
import Mathlib.Data.List.Induction

/-
  Scanning. In a tree of files and directories without links, the table made for an entry holds
  the entry and the scripts below its directory, each under the path that leads there from the
  directory, and nothing else. A table that is made of the same files answers alike; it knows
  of no directory that is not there, though not of those without scripts.
-/
namespace GuildPlan
variable {α : Type}

/-! ## Walks -/

namespace Tree
variable {t : Tree α}

/-- Where one piece of a path leads from a directory. -/
inductive Leads (t : Tree α) (here : Way) : String → Way → Prop
  | stay {piece : String} : Path.idle piece = true → Leads t here piece here
  | up : Leads t here ".." here.dropLast
  | down {name : String} {n : Node α} : Path.idle name = false → name ≠ ".." →
    name.utf8ByteSize ≤ nameLimit → t.node? (here ++ [name]) = some n →
    (∀ target, n ≠ .link target) → Leads t here name (here ++ [name])

/-- A walk that arrives goes piece by piece, from directory to directory. -/
theorem walk_cons {here way : Way} {p : String} {ps : List String} :
    t.walk here (p :: ps) = .arrived way ↔ t.node? here = some .directory ∧
      ∃ next, t.Leads here p next ∧ t.walk next ps = .arrived way := by
  constructor
  · intro arrived
    unfold walk at arrived
    split at arrived
    · next found =>
      refine ⟨found, ?_⟩
      split at arrived
      · next stays => exact ⟨here, .stay stays, arrived⟩
      · next moves =>
        split at arrived
        · next up =>
          subst up
          exact ⟨_, .up, arrived⟩
        · next proper =>
          split at arrived
          · cases arrived
          · next short =>
            split at arrived
            · split at arrived <;> cases arrived
            · split at arrived <;> cases arrived
            · next unlinked there =>
              exact ⟨_, .down (eq_false_of_ne_true moves) proper (Nat.le_of_not_lt short)
                there fun target same => unlinked target same, arrived⟩
    · cases arrived
  · rintro ⟨found, next, leads, arrived⟩
    rw [walk, found]
    cases leads with
    | stay stays => rwa [stays]
    | up => exact arrived
    | @down _ n moves proper short there unlinked =>
      simp only [moves, proper, Nat.not_lt.2 short, there, if_false, Bool.false_eq_true]
      cases n with
      | link target => exact absurd rfl (unlinked target)
      | directory => exact arrived
      | file _ => exact arrived

/-- A walk that arrives can be cut anywhere. -/
theorem walk_append {here way : Way} {ps qs : List String} :
    t.walk here (ps ++ qs) = .arrived way ↔
      ∃ mid, t.walk here ps = .arrived mid ∧ t.walk mid qs = .arrived way := by
  induction ps generalizing here with
  | nil =>
    constructor
    · exact fun arrived => ⟨here, rfl, arrived⟩
    · rintro ⟨_, ⟨⟩, arrived⟩
      exact arrived
  | cons p ps ih =>
    rw [List.cons_append, walk_cons]
    simp only [walk_cons, ih]
    constructor
    · rintro ⟨found, next, leads, mid, arrived, further⟩
      exact ⟨mid, ⟨found, next, leads, arrived⟩, further⟩
    · rintro ⟨mid, ⟨found, next, leads, arrived⟩, further⟩
      exact ⟨found, next, leads, mid, arrived, further⟩

/-- Idle pieces lead nowhere. -/
theorem walk_idle {here way : Way} {ps : List String} (idle : ∀ p ∈ ps, Path.idle p = true)
    (arrived : t.walk here ps = .arrived way) : way = here := by
  induction ps generalizing here with
  | nil =>
    cases arrived
    rfl
  | cons p ps ih =>
    obtain ⟨stays, others⟩ := List.forall_mem_cons.1 idle
    obtain ⟨_, next, leads, arrived⟩ := walk_cons.1 arrived
    cases leads with
    | stay _ => exact ih others arrived
    | up => cases stays
    | down moves =>
      rw [moves] at stays
      cases stays

/-- A tree of files and directories: there is one node at the end of a way, which is a file or
a directory, the names on the way are proper, and it leads through directories. -/
structure Plain (t : Tree α) : Prop where
  distinct : (t.nodes.map Prod.fst).Nodup
  named : ∀ e ∈ t.nodes, e.1 ≠ [] ∧ ∀ name ∈ e.1, Path.IsName name
  held : ∀ e ∈ t.nodes, e.1.dropLast ≠ [] → (e.1.dropLast, Node.directory) ∈ t.nodes
  unlinked : ∀ e ∈ t.nodes, ∀ target, e.2 ≠ .link target

namespace Plain
variable (plain : t.Plain)
include plain

theorem node?_eq_some {way : Way} {n : Node α} :
    t.node? way = some n ↔ (way = [] ∧ n = .directory) ∨ (way, n) ∈ t.nodes := by
  unfold node?
  by_cases root : way = []
  · have absent : (way, n) ∉ t.nodes := fun mem => (plain.named _ mem).1 root
    simp [root, root ▸ absent, eq_comm]
  · simp [root, lookup_eq_some_iff_mem plain.distinct]

theorem mem_of_file {way : Way} {body : α} (found : t.node? way = some (.file body)) :
    (way, .file body) ∈ t.nodes := by
  obtain ⟨_, no⟩ | mem := plain.node?_eq_some.1 found
  · cases no
  · exact mem

/-- What leads to a node below leads through directories. -/
theorem directory_of_append {way rest : Way} {n : Node α} (some : way ≠ []) (below : rest ≠ [])
    (mem : (way ++ rest, n) ∈ t.nodes) : (way, .directory) ∈ t.nodes := by
  induction rest using List.reverseRecOn generalizing n with
  | nil => exact absurd rfl below
  | append_singleton rest name ih =>
    have up : (way ++ (rest ++ [name])).dropLast = way ++ rest := by
      rw [← List.append_assoc, List.dropLast_concat]
    have above := plain.held _ mem
    rw [up] at above
    have parent := above (by simp [some])
    by_cases last : rest = []
    · rwa [last, List.append_nil] at parent
    · exact ih last parent

/-- One gets up from a directory to a directory. -/
theorem node?_up {way : Way} (found : t.node? way = some .directory) :
    t.node? way.dropLast = some .directory := by
  rw [plain.node?_eq_some] at found ⊢
  by_cases top : way.dropLast = []
  · exact .inl ⟨top, rfl⟩
  · rcases found with ⟨rfl, -⟩ | mem
    · exact absurd rfl top
    · exact .inr (plain.held _ mem top)

/-- No walk comes to a link. -/
theorem walk_ne_diverted {here way : Way} {ps qs : List String} :
    t.walk here ps ≠ .diverted way qs := by
  induction ps generalizing here with
  | nil => nofun
  | cons p ps ih =>
    unfold walk
    split
    · split
      · exact ih
      · split
        · exact ih
        · split
          · nofun
          · split
            · split <;> nofun
            · next target linked =>
              obtain ⟨_, no⟩ | mem := plain.node?_eq_some.1 linked
              · cases no
              · exact absurd rfl (plain.unlinked _ mem target)
            · exact ih
    · nofun

theorem locate?_eq_some {path : String} {way : Way} :
    t.locate? path = some way ↔ path.utf8ByteSize ≤ pathLimit ∧
      t.walk (t.start path) (Path.pieces path) = .arrived way := by
  have direct : t.follow linkLimit (t.start path) (Path.pieces path) =
      t.walk (t.start path) (Path.pieces path) := by
    unfold follow
    split
    · next linked => exact absurd linked plain.walk_ne_diverted
    · rfl
  unfold locate? reach
  rw [direct]
  by_cases short : path.utf8ByteSize ≤ pathLimit
  · simp only [short, Nat.not_lt.2 short, if_false, true_and]
    split
    · next arrived => simp [arrived]
    · next other => simpa using other way
  · simp [short, Nat.lt_of_not_le short]

theorem read?_eq_some {path : String} {body : α} :
    t.read? path = some body ↔ ∃ way, t.locate? path = some way ∧ (way, .file body) ∈ t.nodes := by
  unfold read?
  cases found : t.locate? path with
  | none => simp
  | some way =>
    simp only [Option.bind_some, Option.some.injEq, exists_eq_left']
    constructor
    · intro read
      split at read
      · next there =>
        cases read
        exact plain.mem_of_file there
      · cases read
    · intro mem
      rw [plain.node?_eq_some.2 (.inr mem)]

/-- The directory that a path starts at has a path of its own. -/
theorem locate?_start {path : String} (found : t.node? (t.start path) = some .directory) :
    t.locate? (if Path.isAbsolute path then "/" else ".") = some (t.start path) := by
  unfold start at found ⊢
  by_cases absolute : Path.isAbsolute path = true
  · simp only [absolute, if_true] at found ⊢
    exact plain.locate?_eq_some.2 ⟨by decide, rfl⟩
  · simp only [absolute, if_false, Bool.false_eq_true] at found ⊢
    refine plain.locate?_eq_some.2 ⟨by decide, ?_⟩
    exact walk_cons.2 ⟨found, t.home, .stay rfl, rfl⟩

/-- The last name of a path to a file is the file's name, and its directory is the one that
the file is in. -/
theorem exists_directory {path : String} {body : α} (read : t.read? path = some body) :
    ∃ here name, t.locate? path = some (here ++ [name]) ∧
      (here ++ [name], .file body) ∈ t.nodes ∧ Path.fileName? path = some name ∧
      t.locate? (Path.directory path) = some here := by
  obtain ⟨way, located, file⟩ := plain.read?_eq_some.1 read
  obtain ⟨short, arrived⟩ := plain.locate?_eq_some.1 located
  have apart : t.node? way ≠ some .directory := by
    rw [plain.node?_eq_some.2 (.inr file)]
    nofun
  obtain ⟨beyond, whole, idles⟩ := Path.exists_pieces_eq path
  cases backward : Path.backward path with
  | nil =>
    -- Only a directory can be walked on from, and such a path walks on from where it starts.
    rw [backward, List.reverse_nil, List.nil_append] at whole
    rw [whole] at arrived
    cases walk_idle idles arrived
    obtain ⟨p, ps, cut⟩ := List.exists_cons_of_ne_nil (Path.pieces_ne_nil path)
    rw [← whole, cut] at arrived
    exact absurd (walk_cons.1 arrived).1 apart
  | cons name rest =>
    rw [whole] at arrived
    obtain ⟨mid, arrived, last⟩ := walk_append.1 arrived
    cases walk_idle idles last
    rw [backward, List.reverse_cons] at arrived
    obtain ⟨here, before, last⟩ := walk_append.1 arrived
    obtain ⟨found, next, leads, last⟩ := walk_cons.1 last
    cases last
    -- A file is at the end of the path, so neither two dots nor an idle piece is its last name.
    cases leads with
    | stay stays =>
      rw [Path.not_idle_of_backward backward] at stays
      cases stays
    | up => exact absurd (plain.node?_up found) apart
    | down moves proper _ _ _ =>
      refine ⟨here, name, located, file, ?_, ?_⟩
      · rw [Path.fileName?, backward]
        simp [proper]
      · obtain ⟨present, idles⟩ | ⟨trail, tail, pieces, idles, goesOn, alike⟩ :=
          Path.directory_cases backward
        · have top := walk_idle (fun p mem => idles p (List.mem_reverse.1 mem)) before
          subst top
          rw [present]
          exact plain.locate?_start found
        · rw [pieces] at before
          obtain ⟨mid, before, last⟩ := walk_append.1 before
          cases walk_idle idles last
          refine plain.locate?_eq_some.2 ⟨?_, ?_⟩
          · rw [goesOn, String.utf8ByteSize_append, String.utf8ByteSize_append] at short
            omega
          · rwa [start, alike]

end Plain

/-- A node below a place, at the end of some way from there. -/
def Below (t : Tree α) (here rest : Way) (n : Node α) : Prop :=
  rest ≠ [] ∧ (here ++ rest, n) ∈ t.nodes

theorem mem_below {here rest : Way} {n : Node α} :
    (rest, n) ∈ t.below here ↔ t.Below here rest n := by
  unfold below Below
  rw [List.mem_filterMap]
  constructor
  · rintro ⟨⟨way, n'⟩, mem, found⟩
    dsimp only at found
    split at found
    · next name rest' cut =>
      cases found
      rw [List.isPrefixOf?_eq_some_iff_append_eq] at cut
      exact ⟨List.cons_ne_nil _ _, cut ▸ mem⟩
    · cases found
  · rintro ⟨some, mem⟩
    obtain ⟨name, rest, rfl⟩ := List.exists_cons_of_ne_nil some
    refine ⟨_, mem, ?_⟩
    dsimp only
    rw [List.isPrefixOf?_eq_some_iff_append_eq.2 rfl]

end Tree

/-! ## Tables -/

namespace MountTable

/-- The body that a node has as a script under some path. -/
def script? (path : String) : Way × Node α → Option α
  | (way, .file body) =>
    if path = Way.path way ∧ Path.hasScriptExtension path = true then some body else none
  | _ => none

theorem script?_eq_some {path : String} {e : Way × Node α} {b : α} :
    script? path e = some b ↔
      e.2 = .file b ∧ path = Way.path e.1 ∧ Path.hasScriptExtension path = true := by
  obtain ⟨way, n⟩ := e
  cases n with
  | file body => simp [script?, and_comm]
  | directory => simp [script?]
  | link target => simp [script?]

/-- A script is mounted unless its path is taken. -/
theorem get?_mount (t : MountTable α) (way : Way) (n : Node α) (path : String) :
    (t.mount way n).get? path = (t.get? path).or (script? path (way, n)) := by
  cases n with
  | directory => exact Option.or_none.symm
  | link target => exact Option.or_none.symm
  | file body =>
    unfold mount get?
    by_cases script : Path.hasScriptExtension way.path = true
    · cases taken : t.files.get? way.path with
      | none =>
        simp only [script, KeyMap.contains, taken, Option.isSome_none, Bool.not_false,
          Bool.and_self, if_true, KeyMap.get?_insert, script?]
        by_cases same : path = way.path
        · simp [same, taken, script]
        · simp [same]
      | some before =>
        simp only [script, KeyMap.contains, taken, Option.isSome_some, Bool.not_true,
          Bool.and_false, Bool.false_eq_true, if_false, script?]
        by_cases same : path = way.path
        · simp [same, taken]
        · simp [same]
    · have other : ¬(path = way.path ∧ Path.hasScriptExtension path = true) := by
        rintro ⟨rfl, also⟩
        exact script also
      simp [script, script?, other]

theorem contains_mount (t : MountTable α) (way : Way) (n : Node α) (path : String) :
    (t.mount way n).directories.contains path = true ↔
      t.directories.contains path = true ∨ n = .directory ∧ path = Way.path way := by
  cases n with
  | directory =>
    rw [mount, KeySet.contains_add]
    simp
  | link target => simp [mount]
  | file body =>
    unfold mount
    dsimp only
    split <;> simp

/-- The table after some nodes have been taken in. -/
def mountAll (t : MountTable α) : List (Way × Node α) → MountTable α
  | [] => t
  | (way, n) :: nodes => (t.mount way n).mountAll nodes

theorem foldl_mount (t : MountTable α) (nodes : List (Way × Node α)) :
    nodes.foldl (fun t (way, n) => t.mount way n) t = t.mountAll nodes := by
  induction nodes generalizing t with
  | nil => rfl
  | cons e nodes ih => exact ih _

theorem get?_mountAll (t : MountTable α) (nodes : List (Way × Node α)) (path : String) :
    (t.mountAll nodes).get? path = (t.get? path).or (nodes.findSome? (script? path)) := by
  induction nodes generalizing t with
  | nil => exact Option.or_none.symm
  | cons e nodes ih =>
    obtain ⟨way, n⟩ := e
    rw [mountAll, ih, get?_mount, Option.or_assoc, List.findSome?_cons]
    cases script? path (way, n) <;> rfl

theorem contains_mountAll (t : MountTable α) (nodes : List (Way × Node α)) (path : String) :
    (t.mountAll nodes).directories.contains path = true ↔
      t.directories.contains path = true ∨
        ∃ way, (way, .directory) ∈ nodes ∧ path = Way.path way := by
  induction nodes generalizing t with
  | nil => simp [mountAll]
  | cons e nodes ih =>
    obtain ⟨way, n⟩ := e
    rw [mountAll, ih, contains_mount]
    simp only [List.mem_cons, Prod.mk.injEq]
    constructor
    · rintro ((before | ⟨rfl, same⟩) | ⟨way', mem, same⟩)
      · exact .inl before
      · exact .inr ⟨way, .inl ⟨rfl, rfl⟩, same⟩
      · exact .inr ⟨way', .inr mem, same⟩
    · rintro (before | ⟨way', ⟨rfl, rfl⟩ | mem, same⟩)
      · exact .inl (.inl before)
      · exact .inl (.inr ⟨rfl, same⟩)
      · exact .inr ⟨way', mem, same⟩

theorem entry_mountAll (t : MountTable α) (nodes : List (Way × Node α)) :
    (t.mountAll nodes).entry = t.entry := by
  induction nodes generalizing t with
  | nil => rfl
  | cons e nodes ih =>
    obtain ⟨way, n⟩ := e
    rw [mountAll, ih]
    cases n with
    | directory => rfl
    | link target => rfl
    | file body =>
      unfold mount
      dsimp only
      split <;> rfl

/-- What a table has in it that holds an entry and the scripts below its directory. -/
structure Mounted (t : MountTable α) (tree : Tree α) (here : Way) (name : String) (body : α) :
    Prop where
  entry : t.entry = name
  source : t.entrySource? = some body
  file : ∀ path b, t.get? path = some b ↔ (path = name ∧ b = body) ∨
    ∃ rest, tree.Below here rest (.file b) ∧ path = Way.path rest ∧
      Path.hasScriptExtension path = true
  directory : ∀ path, t.directories.contains path = true ↔
    ∃ rest, tree.Below here rest .directory ∧ path = Way.path rest

/-- A table answers as another one does, and knows of no further directory. -/
structure Answers (t t' : MountTable α) : Prop where
  source : t.entrySource? = t'.entrySource?
  file : ∀ path, t.get? path = t'.get? path
  module : ∀ name, t.resolve? name = t'.resolve? name
  directory : ∀ path, t.directories.contains path = true → t'.directories.contains path = true

end MountTable

namespace Tree.Plain
variable {tree : Tree α} (plain : tree.Plain) {here : Way}
include plain

theorem named_of_below {rest : Way} {n : Node α} (below : tree.Below here rest n) :
    ∀ name ∈ rest, Path.IsName name :=
  fun name mem => (plain.named _ below.2).2 name (List.mem_append_right here mem)

theorem eq_of_path {rest rest' : Way} {n n' : Node α} (below : tree.Below here rest n)
    (below' : tree.Below here rest' n') (same : rest.path = rest'.path) : n = n' := by
  have one : rest = rest' := Way.path_injective below.1 below'.1 (plain.named_of_below below)
    (plain.named_of_below below') same
  subst one
  have found := (lookup_eq_some_iff_mem plain.distinct).2 below.2
  rw [(lookup_eq_some_iff_mem plain.distinct).2 below'.2] at found
  exact (Option.some.inj found).symm

/-- The script below a place that has some path. -/
theorem findSome?_script? {path : String} {b : α} :
    (tree.below here).findSome? (MountTable.script? path) = some b ↔
      ∃ rest, tree.Below here rest (.file b) ∧ path = Way.path rest ∧
        Path.hasScriptExtension path = true := by
  constructor
  · intro found
    obtain ⟨⟨rest, n⟩, mem, script⟩ := List.exists_of_findSome?_eq_some found
    obtain ⟨rfl, same, extension⟩ := MountTable.script?_eq_some.1 script
    exact ⟨rest, Tree.mem_below.1 mem, same, extension⟩
  · rintro ⟨rest, below, rfl, extension⟩
    cases found : (tree.below here).findSome? (MountTable.script? rest.path) with
    | none =>
      have script : MountTable.script? rest.path (rest, .file b) = some b :=
        MountTable.script?_eq_some.2 ⟨rfl, rfl, extension⟩
      have absent := List.findSome?_eq_none_iff.1 found _ (Tree.mem_below.2 below)
      rw [script] at absent
      cases absent
    | some b' =>
      obtain ⟨⟨rest', n⟩, mem, script⟩ := List.exists_of_findSome?_eq_some found
      obtain ⟨rfl, same, -⟩ := MountTable.script?_eq_some.1 script
      cases plain.eq_of_path (Tree.mem_below.1 mem) below same.symm
      rfl

/-- The table that is made for an entry in a directory. -/
theorem scan_mounted {entry name : String} {body : α}
    (file : (here ++ [name], .file body) ∈ tree.nodes)
    (located : tree.locate? entry = some (here ++ [name]))
    (named : Path.fileName? entry = some name)
    (within : tree.locate? (Path.directory entry) = some here) :
    ∃ t, MountTable.scan tree entry = .ok t ∧ t.Mounted tree here name body := by
  let start : MountTable α :=
    { root := Path.directory entry, entry := name, files := (∅ : KeyMap α).insert name body }
  have read : tree.read? entry = some body := plain.read?_eq_some.2 ⟨_, located, file⟩
  have scanned : MountTable.scan tree entry = .ok (start.mountAll (tree.below here)) := by
    unfold MountTable.scan
    rw [read, named]
    dsimp only
    rw [within, ← MountTable.foldl_mount]
    rfl
  have held : ∀ path, start.get? path = if path = name then some body else none :=
    fun path => KeyMap.get?_insert ∅ name path body
  have files : ∀ path b, (start.mountAll (tree.below here)).get? path = some b ↔
      (path = name ∧ b = body) ∨ ∃ rest, tree.Below here rest (.file b) ∧ path = Way.path rest ∧
        Path.hasScriptExtension path = true := by
    intro path b
    rw [MountTable.get?_mountAll, held, ← plain.findSome?_script?]
    by_cases same : path = name
    · -- The entry is found a second time if it has the extension of a script.
      have again : (tree.below here).findSome? (MountTable.script? path) = some b → b = body := by
        rw [plain.findSome?_script?]
        rintro ⟨rest, below, whole, -⟩
        have beside : tree.Below here [name] (.file body) := ⟨List.cons_ne_nil _ _, file⟩
        have one : Way.path [name] = rest.path := by
          rw [← whole, same]
          exact String.intercalate_singleton
        cases plain.eq_of_path beside below one
        rfl
      rw [if_pos same, Option.some_or, Option.some.injEq, eq_comm]
      constructor
      · exact fun exact => .inl ⟨same, exact⟩
      · rintro (⟨-, exact⟩ | found)
        · exact exact
        · exact again found
    · rw [if_neg same, Option.none_or]
      constructor
      · exact .inr
      · rintro (⟨no, -⟩ | found)
        · exact absurd no same
        · exact found
  refine ⟨_, scanned, MountTable.entry_mountAll _ _, ?_, files, fun path => ?_⟩
  · rw [MountTable.entrySource?, MountTable.entry_mountAll]
    exact (files name body).2 (.inl ⟨rfl, rfl⟩)
  · rw [MountTable.contains_mountAll]
    simp only [Tree.mem_below]
    constructor
    · rintro (no | mounted)
      · cases no
      · exact mounted
    · exact .inr

end Tree.Plain

namespace MountTable
variable {t : MountTable α}

theorem contains_ofSources (entry : String) (sources : List (String × α)) (d : String) :
    (ofSources entry sources).directories.contains d = true ↔
      ∃ s ∈ sources, d ∈ parents s.1 := by
  have empty : (∅ : KeySet).contains d = false := rfl
  show (List.foldl KeySet.add ∅ _).contains d = true ↔ _
  rw [KeySet.contains_foldl_add, List.mem_flatMap, empty]
  simp

/-- What a module name denotes depends on the files alone. -/
theorem resolve?_congr {t t' : MountTable α} (same : ∀ path, t.get? path = t'.get? path)
    (name : String) : t.resolve? name = t'.resolve? name := by
  unfold resolve?
  simp only [same]

/-- The files of a table that was made for an entry make up a table that answers alike. -/
theorem Mounted.answers {tree : Tree α} {here : Way} {name : String} {body : α}
    (mounted : t.Mounted tree here name body) (plain : tree.Plain) (proper : Path.IsName name)
    {sources : List (String × α)} (same : ∀ path b, (path, b) ∈ sources ↔ t.get? path = some b) :
    (ofSources name sources).Answers t := by
  have files : ∀ path, (ofSources name sources).get? path = t.get? path :=
    KeyMap.get?_ofList_eq same
  refine ⟨?_, files, resolve?_congr files, fun d known => ?_⟩
  · rw [entrySource?, entrySource?, mounted.entry]
    exact files name
  · obtain ⟨⟨path, b⟩, mem, above⟩ := (contains_ofSources name sources d).1 known
    obtain ⟨rfl, rfl⟩ | ⟨rest, below, rfl, -⟩ := (mounted.file path b).1 ((same path b).1 mem)
    · -- No directory is above a file name.
      obtain ⟨rest, rfl⟩ := mem_parents.1 above
      exact absurd (by simp) proper.2.2
    · obtain ⟨before, after, some, others, rfl, rfl⟩ :=
        (mem_parents_path (plain.named_of_below below)).1 above
      refine (mounted.directory _).2 ⟨before, ⟨some, ?_⟩, rfl⟩
      refine plain.directory_of_append (by simp [some]) others (n := .file b) ?_
      rw [List.append_assoc]
      exact below.2

/-- The table that is made for an entry script holds the script and those below its directory,
and a table that is made of what it holds answers as it does. -/
theorem scan_mounts {tree : Tree α} {entry : String} {body : α} (plain : tree.Plain)
    (there : tree.read? entry = some body) :
    ∃ here name t, tree.locate? entry = some (here ++ [name]) ∧
      tree.locate? (Path.directory entry) = some here ∧ scan tree entry = .ok t ∧
      t.Mounted tree here name body ∧
      ∀ sources, (∀ path b, (path, b) ∈ sources ↔ t.get? path = some b) →
        (ofSources name sources).Answers t := by
  obtain ⟨here, name, located, file, named, within⟩ := plain.exists_directory there
  obtain ⟨t, scanned, mounted⟩ := plain.scan_mounted file located named within
  have proper : Path.IsName name :=
    (plain.named _ file).2 name (List.mem_append_right here List.mem_cons_self)
  exact ⟨here, name, t, located, within, scanned, mounted, fun _ same =>
    mounted.answers plain proper same⟩

/-- An entry whose name is not that of a script, beside a directory whose name is, and a script
below that. -/
def shelf : Tree String where
  nodes := [(["guild"], .directory), (["guild", "main.txt"], .file "entry"),
    (["guild", "lib.lua"], .directory), (["guild", "lib.lua", "roles.luau"], .file "roles"),
    (["guild", "notes.txt"], .file "notes")]

theorem shelf_plain : shelf.Plain where
  distinct := by decide
  named := by decide
  held := by simp [shelf]
  unlinked := by simp [shelf]

theorem scan_mounts_shelf :
    shelf.Plain ∧ shelf.read? "guild/./main.txt" = some "entry" ∧
      ∃ here name t, shelf.locate? "guild/./main.txt" = some (here ++ [name]) ∧
        shelf.locate? (Path.directory "guild/./main.txt") = some here ∧
        scan shelf "guild/./main.txt" = .ok t ∧ t.Mounted shelf here name "entry" ∧
        ∀ sources, (∀ path b, (path, b) ∈ sources ↔ t.get? path = some b) →
          (ofSources name sources).Answers t :=
  have there : shelf.read? "guild/./main.txt" = some "entry" := by rfl
  ⟨shelf_plain, there, scan_mounts shelf_plain there⟩

end MountTable
end GuildPlan
