import GuildPlan.Ordering
import GuildPlan.Proofs.Inheritance
import Mathlib.Data.List.Nodup

/-
  The two canonical orders. Where ids are distinct a sort leaves no choice: its result
  strictly increases and does not depend on the order that it finds, and sorting a second
  time changes nothing.
-/
namespace GuildPlan

theorem Snowflake.eq_of_toNat_eq {a b : Snowflake} (same : a.toNat = b.toNat) : a = b := by
  cases a
  cases b
  cases same
  rfl

/-- A sort whose order tells all elements of a list apart has one result for all orders of
the list. -/
theorem mergeSort_eq_of_perm {α : Type} {le : α → α → Bool} {xs ys : List α}
    (trans : ∀ a b c, le a b → le b c → le a c) (total : ∀ a b, le a b || le b a)
    (antisymm : ∀ a ∈ xs, ∀ b ∈ xs, le a b → le b a → a = b) (p : xs.Perm ys) :
    xs.mergeSort le = ys.mergeSort le := by
  have sorted : (xs.mergeSort le).Perm (ys.mergeSort le) :=
    (List.mergeSort_perm xs le).trans (p.trans (List.mergeSort_perm ys le).symm)
  refine sorted.eq_of_pairwise (fun a b left right ab ba => ?_)
    (List.pairwise_mergeSort trans total xs) (List.pairwise_mergeSort trans total ys)
  have right : b ∈ xs := p.mem_iff.2 (List.mem_mergeSort.1 right)
  exact antisymm a (List.mem_mergeSort.1 left) b right ab ba

/-! ## Lists up to order -/

/-- The second list is the first one in some order, element by element up to a relation. -/
def Shuffled {α β : Type} (R : α → β → Prop) (xs : List α) (ys : List β) : Prop :=
  ∃ zs, List.Forall₂ R xs zs ∧ zs.Perm ys

theorem shuffled_of_map_perm {α β : Type} {R : α → β → Prop} {f : α → β} {xs : List α}
    {ys : List β} (related : ∀ x ∈ xs, R x (f x)) (p : ys.Perm (xs.map f)) : Shuffled R xs ys :=
  ⟨xs.map f, List.forall₂_map_right_iff.2 (List.forall₂_same.2 related), p.symm⟩

theorem Shuffled.map_perm {α β γ : Type} {R : α → β → Prop} {f : α → γ} {g : β → γ} {xs : List α}
    {ys : List β} (same : ∀ x ∈ xs, ∀ y, R x y → f x = g y) (h : Shuffled R xs ys) :
    (xs.map f).Perm (ys.map g) := by
  obtain ⟨zs, related, p⟩ := h
  have equal : xs.map f = zs.map g := by
    clear p
    induction related with
    | nil => rfl
    | cons here _ ih =>
      obtain ⟨first, others⟩ := List.forall_mem_cons.1 same
      rw [List.map_cons, List.map_cons, first _ here, ih others]
  rw [equal]
  exact p.map g

/-! ## By id -/

section ById
variable {α : Type} {id : α → Snowflake}

/-- The ids of a list strictly increase as numbers. -/
def Increasing (id : α → Snowflake) (xs : List α) : Prop :=
  xs.Pairwise fun a b => (id a).toNat < (id b).toNat

theorem idLe_trans (id : α → Snowflake) (a b c : α) (ab : decide ((id a).toNat ≤ (id b).toNat))
    (bc : decide ((id b).toNat ≤ (id c).toNat)) : decide ((id a).toNat ≤ (id c).toNat) := by
  simp only [decide_eq_true_eq] at *
  omega

theorem idLe_total (id : α → Snowflake) (a b : α) :
    decide ((id a).toNat ≤ (id b).toNat) || decide ((id b).toNat ≤ (id a).toNat) := by
  simp only [Bool.or_eq_true, decide_eq_true_eq]
  omega

theorem sortById_perm (id : α → Snowflake) (xs : List α) : (sortById id xs).Perm xs :=
  List.mergeSort_perm _ _

theorem mem_sortById {x : α} {xs : List α} : x ∈ sortById id xs ↔ x ∈ xs :=
  (sortById_perm id xs).mem_iff

theorem increasing_sortById {xs : List α} (distinct : (xs.map id).Nodup) :
    Increasing id (sortById id xs) := by
  -- The sort alone gives `≤`; distinct ids make it strict.
  have sorted := List.pairwise_mergeSort (idLe_trans id) (idLe_total id) xs
  have apart : (sortById id xs).Pairwise fun a b => id a ≠ id b :=
    List.pairwise_map.1 (((sortById_perm id xs).map id).nodup_iff.2 distinct)
  refine (sorted.and apart).imp fun {a b} h => ?_
  have differ : (id a).toNat ≠ (id b).toNat := fun same => h.2 (Snowflake.eq_of_toNat_eq same)
  have le : (id a).toNat ≤ (id b).toNat := of_decide_eq_true h.1
  omega

theorem sortById_eq_of_perm {xs ys : List α} (distinct : (xs.map id).Nodup) (p : xs.Perm ys) :
    sortById id xs = sortById id ys := by
  refine mergeSort_eq_of_perm (idLe_trans id) (idLe_total id) (fun a left b right ab ba => ?_) p
  have same : (id a).toNat = (id b).toNat :=
    Nat.le_antisymm (of_decide_eq_true ab) (of_decide_eq_true ba)
  exact List.inj_on_of_nodup_map distinct left right (Snowflake.eq_of_toNat_eq same)

theorem sortById_of_increasing {xs : List α} (h : Increasing id xs) : sortById id xs = xs :=
  List.mergeSort_of_pairwise (h.imp fun less => decide_eq_true (Nat.le_of_lt less))

end ById

/-! ## Overrides -/

/-- The canonical order of overrides: roles before users, then by the subject's id. -/
def Override.Before (a b : Override) : Prop :=
  a.kind.rank < b.kind.rank ∨ a.kind = b.kind ∧ a.id.toNat < b.id.toNat

/-- A list of overrides in canonical order, with one override for each subject. -/
structure CanonicalOverrides (overrides : List Override) : Prop where
  increasing : overrides.Pairwise Override.Before
  distinct : DistinctSubjects overrides

theorem SubjectKind.eq_of_rank_eq {a b : SubjectKind} (same : a.rank = b.rank) : a = b := by
  cases a <;> cases b <;> first | rfl | cases same

namespace Override

theorem precedes_iff {a b : Override} :
    a.precedes b ↔ a.kind.rank < b.kind.rank ∨
      a.kind.rank = b.kind.rank ∧ a.id.toNat ≤ b.id.toNat := by
  simp [precedes]

theorem precedes_trans (a b c : Override) (ab : a.precedes b) (bc : b.precedes c) :
    a.precedes c := by
  rw [precedes_iff] at *
  omega

theorem precedes_total (a b : Override) : a.precedes b || b.precedes a := by
  rw [Bool.or_eq_true, precedes_iff, precedes_iff]
  omega

theorem Before.precedes {a b : Override} (h : a.Before b) : a.precedes b := by
  rw [precedes_iff]
  rcases h with less | ⟨same, less⟩
  · exact .inl less
  · exact .inr ⟨congrArg _ same, Nat.le_of_lt less⟩

/-- An override before one of another subject is strictly before it. -/
theorem before_of_precedes {a b : Override} (h : a.precedes b) (apart : a.id ≠ b.id) :
    a.Before b := by
  rcases precedes_iff.1 h with less | ⟨same, le⟩
  · exact .inl less
  · have differ : a.id.toNat ≠ b.id.toNat := fun same => apart (Snowflake.eq_of_toNat_eq same)
    exact .inr ⟨SubjectKind.eq_of_rank_eq same, by omega⟩

theorem id_eq_of_precedes {a b : Override} (ab : a.precedes b) (ba : b.precedes a) :
    a.id = b.id := by
  rw [precedes_iff] at ab ba
  exact Snowflake.eq_of_toNat_eq (by omega)

end Override

theorem sortOverrides_perm (overrides : List Override) :
    (sortOverrides overrides).Perm overrides :=
  List.mergeSort_perm _ _

theorem canonical_sortOverrides {overrides : List Override}
    (distinct : DistinctSubjects overrides) : CanonicalOverrides (sortOverrides overrides) := by
  have kept : DistinctSubjects (sortOverrides overrides) :=
    distinct.perm (sortOverrides_perm overrides).symm
  have sorted := List.pairwise_mergeSort Override.precedes_trans Override.precedes_total overrides
  refine ⟨(sorted.and (List.pairwise_map.1 kept)).imp fun h => ?_, kept⟩
  exact Override.before_of_precedes h.1 h.2

theorem sortOverrides_eq_of_perm {xs ys : List Override} (distinct : DistinctSubjects xs)
    (p : xs.Perm ys) : sortOverrides xs = sortOverrides ys := by
  refine mergeSort_eq_of_perm Override.precedes_trans Override.precedes_total
    (fun a left b right ab ba => ?_) p
  exact List.inj_on_of_nodup_map distinct left right (Override.id_eq_of_precedes ab ba)

theorem sortOverrides_of_canonical {overrides : List Override} (h : CanonicalOverrides overrides) :
    sortOverrides overrides = overrides :=
  List.mergeSort_of_pairwise (h.increasing.imp Override.Before.precedes)

end GuildPlan
