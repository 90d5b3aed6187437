import GuildPlan.Proofs.Paths

/-
  Module names. A script is found by its own path, and by the names of the directories that lead
  to it with its own, whether dots or slashes stand between them; where several scripts go by one
  name, it denotes the first of them. The present directory may be named in front of all that.
-/
namespace GuildPlan

/-! ## Extensions -/

namespace Path

/-- An extension stands after a dot at the end of a piece. -/
theorem exists_suffix_of_extension {path e : String} (found : extension? path = some e) :
    ∃ piece ∈ pieces path, '.' :: e.toList <:+ piece.toList := by
  obtain ⟨name, last, cut⟩ := Option.bind_eq_some_iff.1 found
  have first : name ∈ (backward path).head? := (Option.filter_eq_some_iff.1 last).1
  have mem : name ∈ pieces path :=
    List.mem_reverse.1 ((List.dropWhile_suffix _).subset (List.mem_of_mem_head? first))
  refine ⟨name, mem, ?_⟩
  dsimp only at cut
  split at cut
  · next dot c before rest =>
    cases cut
    have stops : dot = '.' := by
      have out := List.head?_dropWhile_not (fun c => decide (c ≠ '.')) name.toList.reverse
      rw [rest] at out
      simpa using out
    have whole := List.takeWhile_append_dropWhile (p := (· ≠ '.')) (l := name.toList.reverse)
    rw [rest, stops] at whole
    rw [← List.reverse_prefix, String.toList_ofList, List.reverse_cons, List.reverse_reverse]
    exact ⟨c :: before, (List.append_assoc _ _ _).trans whole⟩
  · cases cut

/-- A path has no script extension if none of its pieces ends in one. -/
theorem not_hasScriptExtension {path : String} (plain : ∀ piece ∈ pieces path,
    ∀ ext ∈ scriptExtensions, ¬ '.' :: ext.toList <:+ piece.toList) :
    hasScriptExtension path = false := by
  unfold hasScriptExtension
  cases found : extension? path with
  | none => rfl
  | some e =>
    obtain ⟨piece, mem, ends⟩ := exists_suffix_of_extension found
    refine Bool.eq_false_iff.2 fun script => ?_
    exact plain piece mem e (List.contains_iff_mem.1 script) ends

end Path

namespace MountTable
variable {α : Type} {t : MountTable α}

/-! ## The present directory -/

theorem withoutDot_eq_self {cs : List Char} (plain : ¬['.', '/'] <+: cs) :
    withoutDot cs = cs := by
  fun_cases withoutDot cs with
  | case1 rest => exact absurd ⟨rest, rfl⟩ plain
  | case2 => rfl

/-- A name denotes the same in the present directory. -/
theorem resolve?_dot_slash (name : String) : t.resolve? ("./" ++ name) = t.resolve? name := by
  have whole : ("./" ++ name).toList = '.' :: '/' :: name.toList := by simp
  unfold resolve? candidates
  rw [whole, withoutDot]

theorem resolve?_dots_slashes (name : String) (k : Nat) :
    t.resolve? (String.join (List.replicate k "./") ++ name) = t.resolve? name := by
  induction k with
  | zero => simp
  | succ k ih =>
    rw [List.replicate_succ, String.join_cons, String.append_assoc, resolve?_dot_slash, ih]

/-! ## Candidates -/

theorem candidates_of_script {path : String} (script : Path.hasScriptExtension path = true)
    (plain : ¬['.', '/'] <+: path.toList) : candidates path = [path] := by
  unfold candidates
  dsimp only
  rw [withoutDot_eq_self plain, String.ofList_toList, if_pos script]

theorem candidates_of_name {name base : String} (plain : ¬['.', '/'] <+: name.toList)
    (other : Path.hasScriptExtension name = false)
    (slashes : name.toList.map (fun c => if c = '.' then '/' else c) = base.toList) :
    candidates name =
      [base ++ ".lua", base ++ ".luau", base ++ "/init.lua", base ++ "/init.luau"] := by
  unfold candidates
  dsimp only
  rw [withoutDot_eq_self plain, String.ofList_toList, slashes, String.ofList_toList,
    if_neg (Bool.eq_false_iff.1 other)]
  simp only [Path.scriptExtensions, List.map_cons, List.map_nil, String.append_assoc]
  rfl

/-! ## Parts of a name -/

/-- A part of a name: some characters, and none that separates parts. -/
structure IsPart (part : String) : Prop where
  some : part ≠ ""
  dotless : '.' ∉ part.toList
  slashless : '/' ∉ part.toList

section Parts
variable {parts : List String} {sep : String}

theorem notMem_intercalate {c : Char} (other : c ∉ sep.toList)
    (absent : ∀ part ∈ parts, c ∉ part.toList) : c ∉ (sep.intercalate parts).toList := by
  induction parts with
  | nil => simp
  | cons part parts ih =>
    obtain ⟨first, others⟩ := List.forall_mem_cons.1 absent
    cases parts with
    | nil => rwa [String.intercalate_singleton]
    | cons part' parts =>
      rw [String.intercalate_cons_cons, String.toList_append, String.toList_append,
        List.mem_append, List.mem_append, not_or, not_or]
      exact ⟨⟨first, other⟩, ih others⟩

/-- What stands between the parts of a name becomes a slash, and nothing else changes. -/
theorem map_intercalate (separates : sep = "." ∨ sep = "/")
    (dotless : ∀ part ∈ parts, '.' ∉ part.toList) :
    (sep.intercalate parts).toList.map (fun c => if c = '.' then '/' else c) =
      ("/".intercalate parts).toList := by
  have slash : sep.toList.map (fun c => if c = '.' then '/' else c) = "/".toList := by
    rcases separates with rfl | rfl
    · rfl
    · rfl
  have unchanged {cs : List Char} (none : '.' ∉ cs) :
      cs.map (fun c => if c = '.' then '/' else c) = cs := by
    have each : ∀ c ∈ cs, (if c = '.' then '/' else c) = id c :=
      fun c mem => if_neg fun dot : c = '.' => none (dot ▸ mem)
    rw [List.map_congr_left each, List.map_id]
  induction parts with
  | nil => rfl
  | cons part parts ih =>
    obtain ⟨first, others⟩ := List.forall_mem_cons.1 dotless
    cases parts with
    | nil =>
      rw [String.intercalate_singleton, String.intercalate_singleton]
      exact unchanged first
    | cons part' parts =>
      simp only [String.intercalate_cons_cons, String.toList_append, List.map_append,
        unchanged first, slash, ih others]

variable (some : parts ≠ []) (named : ∀ part ∈ parts, IsPart part)
include some named

/-- A name does not begin in the present directory, whatever separates its parts. -/
theorem not_prefix_intercalate : ¬['.', '/'] <+: (sep.intercalate parts).toList := by
  rintro ⟨after, whole⟩
  cases parts with
  | nil => exact some rfl
  | cons part rest =>
    obtain ⟨tail, eq⟩ : ∃ tail, sep.intercalate (part :: rest) = part ++ tail := by
      cases rest with
      | nil => exact ⟨"", by simp⟩
      | cons => exact ⟨_, by rw [String.intercalate_cons_cons, String.append_assoc]⟩
    rw [eq, String.toList_append] at whole
    have isPart := named part List.mem_cons_self
    cases chars : part.toList with
    | nil => exact isPart.some (String.toList_eq_nil_iff.1 chars)
    | cons c cs =>
      rw [chars] at whole
      have dot : '.' = c := (List.cons.inj whole).1
      exact isPart.dotless (chars ▸ dot ▸ List.mem_cons_self)

/-- Whether dots or slashes separate the parts of a name, it stands for the same paths. -/
theorem candidates_intercalate (separates : sep = "." ∨ sep = "/")
    (other : Path.hasScriptExtension (sep.intercalate parts) = false) :
    candidates (sep.intercalate parts) =
      ["/".intercalate parts ++ ".lua", "/".intercalate parts ++ ".luau",
        "/".intercalate parts ++ "/init.lua", "/".intercalate parts ++ "/init.luau"] := by
  refine candidates_of_name (not_prefix_intercalate some named) other ?_
  exact map_intercalate separates fun part mem => (named part mem).dotless

theorem not_hasScriptExtension_slashed :
    Path.hasScriptExtension ("/".intercalate parts) = false := by
  refine Path.not_hasScriptExtension fun piece mem ext _ ends => ?_
  rw [Path.pieces_intercalate some fun part mem => (named part mem).slashless] at mem
  exact (named piece mem).dotless (ends.subset List.mem_cons_self)

omit some in
theorem not_hasScriptExtension_dotted
    (plain : ∀ ext ∈ Path.scriptExtensions,
      ¬ '.' :: ext.toList <:+ (".".intercalate parts).toList) :
    Path.hasScriptExtension (".".intercalate parts) = false := by
  have slashless : '/' ∉ (".".intercalate parts).toList :=
    notMem_intercalate (by decide) fun part mem => (named part mem).slashless
  have one : Path.pieces (".".intercalate parts) = [".".intercalate parts] := by
    have single := Path.pieces_intercalate (List.cons_ne_nil (".".intercalate parts) [])
      (List.forall_mem_singleton.2 slashless)
    rwa [String.intercalate_singleton] at single
  refine Path.not_hasScriptExtension fun piece mem => ?_
  rw [one] at mem
  exact List.mem_singleton.1 mem ▸ plain

end Parts

/-! ## Modules -/

/-- The first of some paths at which there is a file, with the file; or nothing. -/
inductive FirstMounted (t : MountTable α) : List String → Option (String × α) → Prop
  | none : FirstMounted t [] none
  | here {path : String} {source : α} {paths : List String} (mounted : t.get? path = some source) :
    FirstMounted t (path :: paths) (some (path, source))
  | next {path : String} {paths : List String} {found : Option (String × α)}
    (absent : t.get? path = Option.none) (later : FirstMounted t paths found) :
    FirstMounted t (path :: paths) found

theorem firstMounted_findSome? (t : MountTable α) (paths : List String) :
    FirstMounted t paths (paths.findSome? fun path => (t.get? path).map (path, ·)) := by
  induction paths with
  | nil => exact .none
  | cons path paths ih =>
    rw [List.findSome?_cons]
    cases content : t.get? path with
    | none => exact .next content ih
    | some source => exact .here content


/-- A script is found by its own path. A name of several parts denotes the first of the scripts that
it may stand for, and does so whether dots or slashes separate the parts, unless the dots make it
end like a script. In front of any name, `./` makes no difference. -/
theorem modules_resolve (t : MountTable α) :
    (∀ path source, t.get? path = some source → Path.hasScriptExtension path = true →
      ¬"./".toList <+: path.toList → t.resolve? path = some (path, source) ∧
        ∀ k, t.resolve? (String.join (List.replicate k "./") ++ path) = some (path, source)) ∧
    (∀ parts, parts ≠ [] → (∀ part ∈ parts, IsPart part) →
      (∀ ext ∈ [".lua", ".luau"], ¬ext.toList <:+ (".".intercalate parts).toList) →
      t.resolve? (".".intercalate parts) = t.resolve? ("/".intercalate parts) ∧
        t.FirstMounted ["/".intercalate parts ++ ".lua", "/".intercalate parts ++ ".luau",
          "/".intercalate parts ++ "/init.lua", "/".intercalate parts ++ "/init.luau"]
          (t.resolve? ("/".intercalate parts))) ∧
    ∀ name, t.resolve? ("./" ++ name) = t.resolve? name := by
  refine ⟨?_, ?_, resolve?_dot_slash⟩
  · intro path source mounted script plain
    have itself : t.resolve? path = some (path, source) := by
      unfold resolve?
      rw [candidates_of_script script plain, List.findSome?_cons, mounted]
      rfl
    refine ⟨itself, fun k => ?_⟩
    rw [resolve?_dots_slashes, itself]
  · intro parts some named plain
    have dotted : Path.hasScriptExtension (".".intercalate parts) = false := by
      refine not_hasScriptExtension_dotted named fun ext mem => ?_
      have dot : ("." ++ ext).toList = '.' :: ext.toList := by simp
      rw [← dot]
      exact plain ("." ++ ext) (List.mem_map_of_mem (f := ("." ++ ·)) mem)
    have slashed := not_hasScriptExtension_slashed some named
    unfold resolve?
    rw [candidates_intercalate some named (.inl rfl) dotted,
      candidates_intercalate some named (.inr rfl) slashed]
    exact ⟨rfl, firstMounted_findSome? t _⟩

end MountTable

namespace Sample

/-- An entry with two modules beside it, one of them a directory. -/
def library : MountTable String :=
  .ofSources "main.lua"
    [("main.lua", "return {}"), ("lib/a.lua", "return 1"), ("lib/b/init.luau", "return 2")]

theorem modules_resolve_library :
    library.resolve? "././lib/a.lua" = some ("lib/a.lua", "return 1") ∧
    library.resolve? "lib.b" = library.resolve? "lib/b" ∧
    library.FirstMounted ["lib/b.lua", "lib/b.luau", "lib/b/init.lua", "lib/b/init.luau"]
      (some ("lib/b/init.luau", "return 2")) := by
  obtain ⟨paths, names, _⟩ := MountTable.modules_resolve library
  have parts : ∀ part ∈ ["lib", "b"], MountTable.IsPart part := by
    rw [List.forall_mem_cons, List.forall_mem_singleton]
    exact ⟨⟨by decide, by decide, by decide⟩, ⟨by decide, by decide, by decide⟩⟩
  obtain ⟨same, first⟩ := names ["lib", "b"] (by decide) parts (by decide)
  exact ⟨(paths "lib/a.lua" "return 1" rfl rfl (by decide)).2 2, same, first⟩

end Sample
end GuildPlan
