import GuildPlan.Proofs.Scanning

/-
  Tables of given sources. Such a table is made source by source, and the directories above a
  path are found by cutting it at its last slash for as long as there is one. That ends for all
  sources, whatever slashes are in their paths, and it ends with the table of these sources:
  the directories in it are those above a path, and a path has the last source that is given
  for it.
-/
namespace GuildPlan
variable {α : Type}

/-! ## Cutting a path -/

namespace Path

/-- What comes before the last slash of a path, and what follows it. -/
def cutLast? (path : String) : Option (String × String) :=
  match path.toList.reverse.dropWhile (· ≠ '/') with
  | [] => none
  | _ :: before =>
    some (String.ofList before.reverse,
      String.ofList (path.toList.reverse.takeWhile (· ≠ '/')).reverse)

theorem slash_notMem_of_cutLast? {path : String} (cut : cutLast? path = none) :
    '/' ∉ path.toList := by
  unfold cutLast? at cut
  split at cut
  · next plain =>
    intro mem
    simpa using List.dropWhile_eq_nil_iff.1 plain '/' (List.mem_reverse.2 mem)
  · cases cut

theorem cutLast?_eq_some {path dir last : String} :
    cutLast? path = some (dir, last) ↔ path = dir ++ "/" ++ last ∧ '/' ∉ last.toList := by
  constructor
  · intro cut
    unfold cutLast? at cut
    split at cut
    · cases cut
    · next c before rest =>
      cases cut
      have slash : c = '/' := by
        have head := List.head?_dropWhile_not (· ≠ '/') path.toList.reverse
        rw [rest] at head
        simpa using head
      have whole := List.takeWhile_append_dropWhile (p := (· ≠ '/')) (l := path.toList.reverse)
      rw [rest, slash] at whole
      have forward := List.reverse_eq_iff.1 whole.symm
      refine ⟨String.toList_inj.1 (by simpa using forward), fun mem => ?_⟩
      rw [String.toList_ofList, List.mem_reverse] at mem
      simpa using List.mem_takeWhile_imp mem
  · rintro ⟨rfl, plain⟩
    have backward : (dir ++ "/" ++ last).toList.reverse =
        last.toList.reverse ++ '/' :: dir.toList.reverse := by simp
    have inside : ∀ c ∈ last.toList.reverse, decide (c ≠ '/') = true := by
      intro c mem
      rw [decide_eq_true_iff]
      rintro rfl
      exact plain (List.mem_reverse.1 mem)
    unfold cutLast?
    simp only [backward, List.dropWhile_append_of_pos inside, List.takeWhile_append_of_pos inside]
    simp

end Path

namespace MountTable

/-- Of the directories above a path, the cut at its last slash gives the innermost one; the
others are those above that. -/
theorem mem_parents_of_cut {path dir last : String}
    (cut : Path.cutLast? path = some (dir, last)) {d : String} :
    d ∈ parents path ↔ d = dir ∨ d ∈ parents dir := by
  obtain ⟨rfl, plain⟩ := Path.cutLast?_eq_some.1 cut
  rw [mem_parents, mem_parents]
  constructor
  · rintro ⟨rest, whole⟩
    have chars : dir.toList ++ '/' :: last.toList = d.toList ++ '/' :: rest.toList := by
      simpa using congrArg String.toList whole
    rcases List.append_eq_append_iff.1 chars with ⟨between, longer, ends⟩ | ⟨between, longer, ends⟩
    · cases between with
      | nil => exact .inl (String.toList_inj.1 (by simpa using longer))
      | cons c between =>
        -- The last slash would be one of what follows it.
        obtain ⟨-, tail⟩ := List.cons.inj ends
        exact absurd (tail ▸ List.mem_append_right between List.mem_cons_self) plain
    · cases between with
      | nil => exact .inl (String.toList_inj.1 (by simpa using longer.symm))
      | cons c between =>
        obtain ⟨rfl, -⟩ := List.cons.inj ends
        exact .inr ⟨String.ofList between, String.toList_inj.1 (by simp [longer])⟩
  · rintro (rfl | ⟨rest, rfl⟩)
    · exact ⟨last, rfl⟩
    · exact ⟨rest ++ "/" ++ last, by simp only [String.append_assoc]⟩

theorem notMem_parents_of_cut {path : String} (cut : Path.cutLast? path = none) {d : String} :
    d ∉ parents path := by
  intro above
  obtain ⟨rest, rfl⟩ := mem_parents.1 above
  exact Path.slash_notMem_of_cutLast? cut (by simp)

/-! ## The loops -/

/-- The way up from a path. For as long as there is a slash in it, the path is cut at the last
one, and what comes before that is recorded and taken for the path. -/
inductive Climbs : KeySet → String → KeySet → Prop
  | top {known : KeySet} {path : String} : Path.cutLast? path = none → Climbs known path known
  | up {known known' : KeySet} {path dir last : String} :
      Path.cutLast? path = some (dir, last) → Climbs (known.add dir) dir known' →
      Climbs known path known'

/-- The way through a list of sources. For each of them, the directories above its path are
recorded, and then its content under the path. -/
inductive Collects : MountTable α → List (String × α) → MountTable α → Prop
  | done (t : MountTable α) : Collects t [] t
  | next {t t' : MountTable α} {path : String} {content : α} {rest : List (String × α)}
      {directories : KeySet} : Climbs t.directories path directories →
      Collects { t with directories, files := t.files.insert path content } rest t' →
      Collects t ((path, content) :: rest) t'

/-- The way up ends, since each cut leaves a shorter path. -/
theorem exists_climbs (known : KeySet) (path : String) : ∃ known', Climbs known path known' := by
  induction path using (measure String.length).wf.induction generalizing known with
  | h path ih =>
    cases cut : Path.cutLast? path with
    | none => exact ⟨known, .top cut⟩
    | some halves =>
      obtain ⟨dir, last⟩ := halves
      have shorter : dir.length < path.length := by
        rw [(Path.cutLast?_eq_some.1 cut).1, String.length_append, String.length_append]
        have slash : "/".length = 1 := rfl
        omega
      obtain ⟨known', climbs⟩ := ih dir shorter (known.add dir)
      exact ⟨known', .up cut climbs⟩

theorem Climbs.contains {known known' : KeySet} {path : String} (h : Climbs known path known')
    (d : String) :
    known'.contains d = true ↔ known.contains d = true ∨ d ∈ parents path := by
  induction h with
  | top cut => simp [notMem_parents_of_cut cut]
  | up cut _ ih => rw [ih, KeySet.contains_add, mem_parents_of_cut cut, or_assoc]

/-- The directories are found from the innermost one outwards, and stand in the set as if they
were found the other way around. -/
theorem Climbs.eq {known known' : KeySet} {path : String} (h : Climbs known path known') :
    known' = (parents path).foldl KeySet.add known :=
  KeySet.ext fun d => by rw [h.contains, KeySet.contains_foldl_add]

theorem exists_collects (t : MountTable α) (sources : List (String × α)) :
    ∃ t', Collects t sources t' := by
  induction sources generalizing t with
  | nil => exact ⟨t, .done t⟩
  | cons source rest ih =>
    obtain ⟨path, content⟩ := source
    obtain ⟨directories, climbs⟩ := exists_climbs t.directories path
    obtain ⟨t', collects⟩ := ih { t with directories, files := t.files.insert path content }
    exact ⟨t', .next climbs collects⟩

theorem Collects.eq {t t' : MountTable α} {sources : List (String × α)}
    (h : Collects t sources t') :
    t' = { t with
      directories := (sources.flatMap fun s => parents s.1).foldl KeySet.add t.directories
      files := sources.foldl (fun m e => m.insert e.1 e.2) t.files } := by
  induction h with
  | done t => rfl
  | next climbs _ ih => rw [ih, climbs.eq, List.flatMap_cons, List.foldl_append, List.foldl_cons]

/-- The loops end with the table of the sources, and with no other one. -/
theorem collects_iff {entry : String} {sources : List (String × α)} {t : MountTable α} :
    Collects { entry } sources t ↔ t = ofSources entry sources := by
  constructor
  · intro collects
    exact collects.eq
  · rintro rfl
    obtain ⟨t, collects⟩ := exists_collects { entry } sources
    rwa [← show t = ofSources entry sources from collects.eq]

/-! ## What is in the table -/

/-- A table of given sources is made in finitely many turns. Its directories are the texts that
come before some slash of a path, so that with a directory it has those above it, and each of its
files is the last one that is given for a path. -/
theorem ofSources_collected (entry : String) (sources : List (String × α)) :
    (∀ t, Collects { entry } sources t ↔ t = ofSources entry sources) ∧
    (∀ d, (ofSources entry sources).directories.contains d = true ↔
      ∃ source ∈ sources, ∃ rest, source.1 = d ++ "/" ++ rest) ∧
    (∀ d rest, (ofSources entry sources).directories.contains (d ++ "/" ++ rest) = true →
      (ofSources entry sources).directories.contains d = true) ∧
    ∀ path content, (ofSources entry sources).get? path = some content ↔
      ∃ before after, sources = before ++ (path, content) :: after ∧
        path ∉ after.map Prod.fst := by
  have directory : ∀ d, (ofSources entry sources).directories.contains d = true ↔
      ∃ source ∈ sources, ∃ rest, source.1 = d ++ "/" ++ rest := by
    intro d
    simp only [contains_ofSources, mem_parents]
  refine ⟨fun t => collects_iff, directory, ?_, fun path content => KeyMap.get?_ofList_eq_some⟩
  intro d rest known
  obtain ⟨source, mem, below, whole⟩ := (directory _).1 known
  refine (directory d).2 ⟨source, mem, rest ++ "/" ++ below, ?_⟩
  rw [whole]
  simp only [String.append_assoc]

/-- Sources with slashes where none is expected, two of them under one path. -/
def slashed : List (String × String) :=
  [("/a//b/", "first"), ("lib/a.lua", "return 1"), ("/a//b/", "second")]

example : (ofSources "main.lua" slashed).directories.keys = ["", "/a", "/a/", "/a//b", "lib"] := by
  decide

theorem ofSources_collected_slashed :
    (ofSources "main.lua" slashed).directories.contains ("/a" ++ "/" ++ "") = true ∧
    (ofSources "main.lua" slashed).directories.contains "/a" = true ∧
    (ofSources "main.lua" slashed).get? "/a//b/" = some "second" := by
  obtain ⟨-, directory, closed, file⟩ := ofSources_collected "main.lua" slashed
  have known : (ofSources "main.lua" slashed).directories.contains ("/a" ++ "/" ++ "") = true :=
    (directory _).2 ⟨("/a//b/", "first"), List.mem_cons_self, "b/", by decide⟩
  refine ⟨known, closed "/a" "" known, (file _ _).2 ⟨slashed.take 2, [], rfl, by simp⟩⟩

end MountTable
end GuildPlan
