import GuildPlan.Mount.Table
import GuildPlan.Mount.Tree
import Mathlib.Data.List.TakeWhile

/-
  Paths as lists of names. Cutting a path at its slashes and putting the pieces together again
  lose nothing, so the path of a node below a directory tells the way to it, and the
  directories above it are those that the way leads through.
-/
namespace GuildPlan
namespace Path

/-! ## Pieces -/

theorem split_eq_splitOn (cs : List Char) : split cs = cs.splitOn '/' := by
  induction cs with
  | nil => rfl
  | cons c cs ih =>
    rw [List.splitOn_cons_eq_if_modifyHead, split, ih]
    by_cases slash : c = '/'
    · simp [slash]
    · obtain ⟨piece, rest, cut⟩ := List.exists_cons_of_ne_nil (List.splitOn_ne_nil '/' cs)
      simp [slash, cut]

theorem slash_notMem_of_mem_split {cs piece : List Char} (mem : piece ∈ split cs) :
    '/' ∉ piece := by
  induction cs generalizing piece with
  | nil =>
    rw [List.mem_singleton.1 mem]
    exact List.not_mem_nil
  | cons c cs ih =>
    unfold split at mem
    split at mem
    · rcases List.mem_cons.1 mem with rfl | mem
      · exact List.not_mem_nil
      · exact ih mem
    · next other =>
      split at mem
      · rw [List.mem_singleton.1 mem]
        simpa using Ne.symm other
      · next first rest cut =>
        rw [cut] at ih
        rcases List.mem_cons.1 mem with rfl | mem
        · rw [List.mem_cons, not_or]
          exact ⟨Ne.symm other, ih List.mem_cons_self⟩
        · exact ih (List.mem_cons_of_mem _ mem)

theorem toList_intercalate (ps : List String) :
    ("/".intercalate ps).toList = ['/'].intercalate (ps.map String.toList) := by
  rw [String.toList_intercalate]
  rfl

/-- The pieces of a path make up the path. -/
theorem intercalate_pieces (path : String) : "/".intercalate (pieces path) = path := by
  rw [← String.toList_inj, toList_intercalate, pieces, List.map_map, split_eq_splitOn]
  have same : String.toList ∘ String.ofList = id := funext fun _ => String.toList_ofList
  rw [same, List.map_id, List.intercalate_splitOn]

/-- The pieces of a path that is made up of some are these. -/
theorem pieces_intercalate {ps : List String} (some : ps ≠ [])
    (each : ∀ p ∈ ps, '/' ∉ p.toList) : pieces ("/".intercalate ps) = ps := by
  have whole : (['/'].intercalate (ps.map String.toList)).splitOn '/' = ps.map String.toList := by
    refine List.splitOn_intercalate '/' ?_ (by simpa using some)
    simpa using each
  rw [pieces, toList_intercalate, split_eq_splitOn, whole, List.map_map]
  have same : String.ofList ∘ String.toList = id := funext fun _ => String.ofList_toList
  rw [same, List.map_id]

theorem slash_notMem_of_mem_pieces {path piece : String} (mem : piece ∈ pieces path) :
    '/' ∉ piece.toList := by
  obtain ⟨cs, cut, rfl⟩ := List.mem_map.1 mem
  rw [String.toList_ofList]
  exact slash_notMem_of_mem_split cut

theorem pieces_ne_nil (path : String) : pieces path ≠ [] := by
  simp [pieces, split_eq_splitOn]

theorem pieces_append_slash (a b : String) : pieces (a ++ "/" ++ b) = pieces a ++ pieces b := by
  have whole : (a ++ "/" ++ b).toList = a.toList ++ '/' :: b.toList := by simp
  simp only [pieces, split_eq_splitOn, whole, List.splitOn_append_cons_self, List.map_append]

/-! ## The last name of a path, and what is before it -/

/-- What is left of a list without what satisfies `p` at its end. -/
theorem exists_reverse_eq_append {β : Type} (p : β → Bool) (l : List β) :
    ∃ trail, l.reverse = (l.dropWhile p).reverse ++ trail ∧ ∀ x ∈ trail, p x = true := by
  refine ⟨(l.takeWhile p).reverse, ?_, ?_⟩
  · rw [← List.reverse_append, List.takeWhile_append_dropWhile]
  · exact fun x mem => List.mem_takeWhile_imp (List.mem_reverse.1 mem)

theorem exists_pieces_eq (path : String) :
    ∃ trail, pieces path = (backward path).reverse ++ trail ∧ ∀ x ∈ trail, idle x = true := by
  obtain ⟨trail, whole, each⟩ := exists_reverse_eq_append idle (pieces path).reverse
  rw [List.reverse_reverse] at whole
  exact ⟨trail, whole, each⟩

theorem not_idle_of_backward {path name : String} {rest : List String}
    (last : backward path = name :: rest) : idle name = false := by
  have some : backward path ≠ [] := by
    rw [last]
    exact List.cons_ne_nil _ _
  have head : idle ((backward path).head some) = false := List.head_dropWhile_not idle some
  simpa [last] using head

theorem isAbsolute_append {a b : String} (some : a ≠ "") :
    isAbsolute (a ++ b) = isAbsolute a := by
  unfold isAbsolute
  cases first : a.toList with
  | nil => exact absurd (String.toList_inj.1 first) some
  | cons c cs => simp [first]

/-- The directory of a path is the one that the path starts at if nothing but idle pieces comes
before its last name. Else it has the pieces before the last name, less the idle ones at their
end, and the path goes on from it. -/
theorem directory_cases {path name : String} {rest : List String}
    (last : backward path = name :: rest) :
    (directory path = (if isAbsolute path then "/" else ".") ∧ ∀ x ∈ rest, idle x = true) ∨
      ∃ trail tail, rest.reverse = pieces (directory path) ++ trail ∧
        (∀ x ∈ trail, idle x = true) ∧ path = directory path ++ "/" ++ tail ∧
        isAbsolute (directory path) = isAbsolute path := by
  obtain ⟨beyond, whole, -⟩ := exists_pieces_eq path
  obtain ⟨trail, before, idles⟩ := exists_reverse_eq_append idle rest
  rw [last, List.reverse_cons, before, List.append_assoc, List.append_assoc] at whole
  unfold directory
  rw [last, List.tail_cons]
  split
  · next none =>
    refine .inl ⟨rfl, fun x mem => idles x ?_⟩
    rw [none, List.reverse_nil, List.nil_append] at before
    rwa [← before, List.mem_reverse]
  · next some =>
    have each : ∀ p ∈ (rest.dropWhile idle).reverse, '/' ∉ p.toList := fun p mem =>
      slash_notMem_of_mem_pieces (whole ▸ List.mem_append_left _ mem)
    have nonempty : (rest.dropWhile idle).reverse ≠ [] := mt List.reverse_eq_nil_iff.1 some
    have cut := pieces_intercalate nonempty each
    -- What is left ends in a name, so it is no empty text.
    have filled : "/".intercalate (rest.dropWhile idle).reverse ≠ "" := by
      intro empty
      have stays : idle ((rest.dropWhile idle).head some) = false :=
        List.head_dropWhile_not idle some
      have blank : rest.dropWhile idle = [""] := by
        rw [empty] at cut
        exact List.reverse_inj.1 cut.symm
      simp [blank, idle] at stays
    have goesOn : path = "/".intercalate (rest.dropWhile idle).reverse ++ "/" ++
        "/".intercalate (trail ++ ([name] ++ beyond)) := by
      rw [← String.intercalate_append_of_ne_nil nonempty (by simp), ← whole, intercalate_pieces]
    refine .inr ⟨trail, _, ?_, idles, goesOn, ?_⟩
    · rw [cut]
      exact before
    · rw [goesOn, String.append_assoc]
      exact (isAbsolute_append filled).symm

end Path

/-! ## Ways and their paths -/

/-- A name of something in a directory. -/
def Path.IsName (name : String) : Prop :=
  idle name = false ∧ name ≠ ".." ∧ '/' ∉ name.toList

instance : DecidablePred Path.IsName :=
  fun name => inferInstanceAs (Decidable (_ ∧ name ≠ ".." ∧ _))

namespace Way
variable {way way' : Way}

/-- The path that leads a way. -/
abbrev path (way : Way) : String := "/".intercalate way

theorem path_injective (some : way ≠ []) (some' : way' ≠ []) (named : ∀ p ∈ way, Path.IsName p)
    (named' : ∀ p ∈ way', Path.IsName p) (same : way.path = way'.path) : way = way' := by
  calc
    way = Path.pieces way.path := (Path.pieces_intercalate some fun p mem => (named p mem).2.2).symm
    _ = Path.pieces way'.path := congrArg Path.pieces same
    _ = way' := Path.pieces_intercalate some' fun p mem => (named' p mem).2.2

end Way

namespace MountTable

theorem mem_prefixes {cs before : List Char} :
    before ∈ prefixes cs ↔ ∃ after, cs = before ++ '/' :: after := by
  induction cs generalizing before with
  | nil => simp [prefixes]
  | cons c cs ih =>
    have here : before ∈ prefixes (c :: cs) ↔
        (c = '/' ∧ before = []) ∨ ∃ rest ∈ prefixes cs, c :: rest = before := by
      rw [prefixes]
      by_cases slash : c = '/' <;> simp [slash]
    rw [here]
    constructor
    · rintro (⟨rfl, rfl⟩ | ⟨rest, mem, rfl⟩)
      · exact ⟨cs, rfl⟩
      · obtain ⟨after, rfl⟩ := ih.1 mem
        exact ⟨after, rfl⟩
    · rintro ⟨after, whole⟩
      cases before with
      | nil =>
        cases whole
        exact .inl ⟨rfl, rfl⟩
      | cons b rest =>
        cases whole
        exact .inr ⟨rest, ih.2 ⟨after, rfl⟩, rfl⟩

theorem mem_parents {path d : String} :
    d ∈ parents path ↔ ∃ rest, path = d ++ "/" ++ rest := by
  unfold parents
  rw [List.mem_map]
  constructor
  · rintro ⟨before, mem, rfl⟩
    obtain ⟨after, whole⟩ := mem_prefixes.1 mem
    refine ⟨String.ofList after, String.toList_inj.1 ?_⟩
    simp [whole]
  · rintro ⟨rest, rfl⟩
    refine ⟨d.toList, mem_prefixes.2 ⟨rest.toList, ?_⟩, String.ofList_toList⟩
    simp

/-- The directories above the path of a way are those that the way leads through. -/
theorem mem_parents_path {way : Way} (named : ∀ p ∈ way, Path.IsName p) {d : String} :
    d ∈ parents way.path ↔
      ∃ before after, before ≠ [] ∧ after ≠ [] ∧ way = before ++ after ∧ d = Way.path before := by
  rw [mem_parents]
  constructor
  · rintro ⟨rest, whole⟩
    have some : way ≠ [] := by
      rintro rfl
      have empty := congrArg String.toList whole
      simp at empty
    refine ⟨Path.pieces d, Path.pieces rest, Path.pieces_ne_nil d, Path.pieces_ne_nil rest, ?_,
      (Path.intercalate_pieces d).symm⟩
    rw [← Path.pieces_append_slash, ← whole]
    exact (Path.pieces_intercalate some fun p mem => (named p mem).2.2).symm
  · rintro ⟨before, after, some, others, rfl, rfl⟩
    exact ⟨"/".intercalate after, String.intercalate_append_of_ne_nil some others⟩

end MountTable
end GuildPlan
