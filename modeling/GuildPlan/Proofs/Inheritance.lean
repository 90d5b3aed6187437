import GuildPlan.Inheritance
import GuildPlan.Proofs.KeyMap

/-
  What inheritance does to each subject of a list of overrides, and to each key of a
  subject. Lists of overrides are read through `subject?`, the first override for a subject;
  where subjects are distinct a list is known up to its order by these look-ups.
-/
namespace GuildPlan

/-! ## Settings and permission tables -/

/-- The setting under a key once what is open has been filled. A permission that is allowed
or denied stays so. One that is open, absent or set to inherit, takes the parent's setting,
and stays as it is where the parent has none. -/
def Setting.filled : Option Setting → Option Setting → Option Setting
  | some .allow, _ => some .allow
  | some .deny, _ => some .deny
  | own, none => own
  | _, some parent => some parent

theorem Setting.filled_none (own : Option Setting) : filled own none = own := by
  rcases own with _ | (_ | _ | _) <;> rfl

theorem Setting.filled_some (own : Option Setting) (parent : Setting) :
    filled own (some parent) = some ((own.getD .inherit).orParent parent) := by
  rcases own with _ | (_ | _ | _) <;> rfl

theorem Setting.filled_none_left (parent : Option Setting) : filled none parent = parent := by
  rcases parent with _ | (_ | _ | _) <;> rfl

theorem Setting.filled_self (own : Option Setting) : filled own own = own := by
  rcases own with _ | (_ | _ | _) <;> rfl

theorem Setting.filled_of_explicit {own : Setting} (explicit : own ≠ .inherit)
    (parent : Option Setting) : filled (some own) parent = some own := by
  cases own with
  | inherit => exact absurd rfl explicit
  | allow => rfl
  | deny => rfl

/-- A setting that is there stays there, so it does not matter which gap is filled first. -/
theorem Setting.filled_assoc (own mid parent : Option Setting) :
    filled (filled own mid) parent = filled own (filled mid parent) := by
  rcases own with _ | (_ | _ | _)
  · rw [filled_none_left, filled_none_left]
  · rfl
  · rfl
  · cases mid with
    | none => rw [filled_none, filled_none_left]
    | some mid => rcases mid with _ | _ | _ <;> rcases parent with _ | (_ | _ | _) <;> rfl

/-- What was open has nothing to give once it has been filled. -/
theorem Setting.filled_filled_own (own parent : Option Setting) :
    filled (filled own parent) own = filled own parent := by
  rcases own with _ | (_ | _ | _)
  · rw [filled_none]
  · rfl
  · rfl
  · cases parent with
    | none => rfl
    | some parent => cases parent <;> rfl

namespace PermissionTable

theorem get?_take (own : PermissionTable) (key other : String) (parent : Setting) :
    (take own key parent).get? other =
      if other = key then Setting.filled (own.get? key) (some parent) else own.get? other := by
  rw [take, KeyMap.get?_insert, Setting.filled_some]

/-- Entries with distinct keys join a table independently of each other. -/
theorem get?_foldl_take {entries : List (String × Setting)}
    (distinct : (entries.map Prod.fst).Nodup) (own : PermissionTable) (key : String) :
    (entries.foldl (fun own e => take own e.1 e.2) own).get? key =
      Setting.filled (own.get? key) (entries.lookup key) := by
  induction entries generalizing own with
  | nil => exact (Setting.filled_none _).symm
  | cons e rest ih =>
    obtain ⟨k, v⟩ := e
    obtain ⟨fresh, others⟩ := List.nodup_cons.1 distinct
    rw [List.foldl_cons, ih others, get?_take, lookup_cons_eq]
    by_cases same : key = k
    · subst same
      have absent : rest.lookup key = none :=
        List.lookup_eq_none_iff.2 fun e mem => by
          simpa using fun equal : key = e.1 => fresh (List.mem_map.2 ⟨e, mem, equal.symm⟩)
      rw [if_pos rfl, if_pos rfl, absent, Setting.filled_none]
    · rw [if_neg same, if_neg same]

/-- Inheritance of a whole table, key by key. -/
theorem get?_inheritFrom (own parent : PermissionTable) (key : String) :
    (inheritFrom own parent).get? key = Setting.filled (own.get? key) (parent.get? key) :=
  get?_foldl_take parent.ascending.nodup_keys own key

theorem inheritFrom_assoc (own mid parent : PermissionTable) :
    inheritFrom (inheritFrom own mid) parent = inheritFrom own (inheritFrom mid parent) :=
  KeyMap.ext_get? fun key => by simp only [get?_inheritFrom, Setting.filled_assoc]

theorem inheritFrom_self (own : PermissionTable) : inheritFrom own own = own :=
  KeyMap.ext_get? fun key => by rw [get?_inheritFrom, Setting.filled_self]

theorem inheritFrom_empty (own : PermissionTable) : inheritFrom own ∅ = own := rfl

theorem empty_inheritFrom (parent : PermissionTable) : inheritFrom ∅ parent = parent :=
  KeyMap.ext_get? fun key => (get?_inheritFrom ∅ parent key).trans (Setting.filled_none_left _)

theorem inheritFrom_own (own parent : PermissionTable) :
    inheritFrom (inheritFrom own parent) own = inheritFrom own parent :=
  KeyMap.ext_get? fun key => by simp only [get?_inheritFrom, Setting.filled_filled_own]

/-- What a table says explicitly, it goes on to say. -/
theorem get?_inheritFrom_of_explicit {own : PermissionTable} {key : String} {setting : Setting}
    (explicit : setting ≠ .inherit) (said : own.get? key = some setting)
    (parent : PermissionTable) : (inheritFrom own parent).get? key = some setting := by
  rw [get?_inheritFrom, said, Setting.filled_of_explicit explicit]

end PermissionTable

namespace Override

@[simp] theorem inheritFrom_id (own parent : Override) : (own.inheritFrom parent).id = own.id := rfl

theorem inheritFrom_assoc (own mid parent : Override) :
    (own.inheritFrom mid).inheritFrom parent = own.inheritFrom (mid.inheritFrom parent) := by
  simp only [inheritFrom, PermissionTable.inheritFrom_assoc]

theorem inheritFrom_self (o : Override) : o.inheritFrom o = o := by
  rw [inheritFrom, PermissionTable.inheritFrom_self]

theorem inheritFrom_own (own parent : Override) :
    (own.inheritFrom parent).inheritFrom own = own.inheritFrom parent := by
  simp only [inheritFrom, PermissionTable.inheritFrom_own]

/-- What has been filled from a parent has nothing more to take from it. -/
theorem inheritFrom_inheritFrom (own parent : Override) :
    (own.inheritFrom parent).inheritFrom parent = own.inheritFrom parent := by
  rw [inheritFrom_assoc, inheritFrom_self]

/-- Nor has it later, once others have filled it too. -/
theorem inheritFrom_of_filled {o parent : Override} (filled : o.inheritFrom parent = o)
    (other : Override) : (o.inheritFrom other).inheritFrom parent = o.inheritFrom other :=
  calc
    (o.inheritFrom other).inheritFrom parent
      = ((o.inheritFrom parent).inheritFrom other).inheritFrom parent := by rw [filled]
    _ = o.inheritFrom ((parent.inheritFrom other).inheritFrom parent) := by
      rw [inheritFrom_assoc o, inheritFrom_assoc o]
    _ = o.inheritFrom (parent.inheritFrom other) := by rw [inheritFrom_own]
    _ = (o.inheritFrom parent).inheritFrom other := (inheritFrom_assoc o parent other).symm
    _ = o.inheritFrom other := by rw [filled]

end Override

/-! ## Subjects of a list -/

/-- No two overrides of a list are for one subject. -/
def DistinctSubjects (overrides : List Override) : Prop := (overrides.map Override.id).Nodup

instance (overrides : List Override) : Decidable (DistinctSubjects overrides) :=
  inferInstanceAs (Decidable (overrides.map Override.id).Nodup)

/-- The first override of a list for a subject. -/
def subject? (overrides : List Override) (s : Snowflake) : Option Override :=
  overrides.find? (·.id = s)

theorem subject?_cons (o : Override) (rest : List Override) (s : Snowflake) :
    subject? (o :: rest) s = if o.id = s then some o else subject? rest s := by
  unfold subject?
  rw [List.find?_cons]
  by_cases same : o.id = s <;> simp [same]

theorem mem_of_subject? {overrides : List Override} {s : Snowflake} {o : Override}
    (found : subject? overrides s = some o) : o ∈ overrides ∧ o.id = s :=
  ⟨List.mem_of_find?_eq_some found, by simpa using List.find?_some found⟩

theorem subject?_eq_none_iff {overrides : List Override} {s : Snowflake} :
    subject? overrides s = none ↔ ∀ o ∈ overrides, o.id ≠ s := by
  simp [subject?]

theorem subject?_eq_some_iff {overrides : List Override} (distinct : DistinctSubjects overrides)
    {s : Snowflake} {o : Override} :
    subject? overrides s = some o ↔ o ∈ overrides ∧ o.id = s := by
  refine ⟨mem_of_subject?, ?_⟩
  rintro ⟨mem, rfl⟩
  induction overrides with
  | nil => cases mem
  | cons first rest ih =>
    obtain ⟨fresh, others⟩ := List.nodup_cons.1 distinct
    rw [subject?_cons]
    rcases List.mem_cons.1 mem with rfl | mem
    · exact if_pos rfl
    · have apart : first.id ≠ o.id := fun same => fresh (same ▸ List.mem_map_of_mem mem)
      rw [if_neg apart, ih others mem]

theorem DistinctSubjects.nodup {overrides : List Override} (h : DistinctSubjects overrides) :
    overrides.Nodup :=
  (List.pairwise_map.1 h).imp fun apart same => apart (congrArg Override.id same)

theorem DistinctSubjects.perm {xs ys : List Override} (h : DistinctSubjects xs) (p : xs.Perm ys) :
    DistinctSubjects ys :=
  (p.map Override.id).nodup h

theorem subject?_perm {xs ys : List Override} (distinct : DistinctSubjects xs) (p : xs.Perm ys)
    (s : Snowflake) : subject? xs s = subject? ys s := by
  refine Option.ext fun o => ?_
  rw [subject?_eq_some_iff distinct, subject?_eq_some_iff (distinct.perm p), p.mem_iff]

/-- Lists of distinct subjects with the same look-ups have the same members. -/
theorem perm_of_subject? {xs ys : List Override} (left : DistinctSubjects xs)
    (right : DistinctSubjects ys) (same : ∀ s, subject? xs s = subject? ys s) : xs.Perm ys := by
  refine (List.perm_ext_iff_of_nodup left.nodup right.nodup).2 fun o => ?_
  have found := congrArg (· = some o) (same o.id)
  simpa [subject?_eq_some_iff left, subject?_eq_some_iff right] using found

/-! ## Inheritance of lists -/

/-- The rest of the parents find the list as the first one has left it. -/
theorem inheritOverrides_cons (own : List Override) (parent : Override) (rest : List Override) :
    inheritOverrides own (parent :: rest) =
      inheritOverrides (inheritOverride parent own) rest := rfl

theorem subject?_inheritOverride (parent : Override) (own : List Override) (s : Snowflake) :
    subject? (inheritOverride parent own) s =
      if parent.id = s then
        some (((subject? own s).map (·.inheritFrom parent)).getD parent)
      else subject? own s := by
  induction own with
  | nil => rw [inheritOverride, subject?_cons]; rfl
  | cons o rest ih =>
    unfold inheritOverride
    by_cases same : o.id = parent.id
    · rw [if_pos same, subject?_cons, subject?_cons, Override.inheritFrom_id, same]
      split <;> rfl
    · rw [if_neg same, subject?_cons, subject?_cons, ih]
      by_cases here : o.id = s
      · have apart : ¬parent.id = s := fun equal => same (here.trans equal.symm)
        rw [if_pos here, if_neg apart, if_pos here]
      · rw [if_neg here, if_neg here]

theorem mem_ids_inheritOverride {parent : Override} {own : List Override} {s : Snowflake} :
    s ∈ (inheritOverride parent own).map Override.id ↔
      s = parent.id ∨ s ∈ own.map Override.id := by
  induction own with
  | nil => simp [inheritOverride]
  | cons o rest ih =>
    unfold inheritOverride
    split
    · next same => simp [same]
    · rw [List.map_cons, List.mem_cons, ih, List.map_cons, List.mem_cons]
      exact or_left_comm

theorem DistinctSubjects.inheritOverride (parent : Override) {own : List Override}
    (h : DistinctSubjects own) : DistinctSubjects (inheritOverride parent own) := by
  induction own with
  | nil => exact List.pairwise_singleton _ _
  | cons o rest ih =>
    obtain ⟨fresh, others⟩ := List.nodup_cons.1 h
    unfold GuildPlan.inheritOverride
    split
    · exact List.nodup_cons.2 ⟨fresh, others⟩
    · next apart =>
      refine List.nodup_cons.2 ⟨fun mem => ?_, ih others⟩
      exact (mem_ids_inheritOverride.1 mem).elim apart fresh

theorem DistinctSubjects.inheritOverrides (parents : List Override) {own : List Override}
    (h : DistinctSubjects own) : DistinctSubjects (inheritOverrides own parents) := by
  induction parents generalizing own with
  | nil => exact h
  | cons parent rest ih => exact ih (h.inheritOverride parent)

/-- What a subject has once a list has inherited: its own override filled from its
parent's, or the only one there is. -/
def inherited : Option Override → Option Override → Option Override
  | own, none => own
  | none, some parent => some parent
  | some own, some parent => some (own.inheritFrom parent)

/-- Parents with distinct subjects pass down independently of each other. -/
theorem subject?_inheritOverrides {parents : List Override} (distinct : DistinctSubjects parents)
    (own : List Override) (s : Snowflake) :
    subject? (inheritOverrides own parents) s =
      inherited (subject? own s) (subject? parents s) := by
  induction parents generalizing own with
  | nil => rfl
  | cons parent rest ih =>
    obtain ⟨fresh, others⟩ := List.nodup_cons.1 distinct
    rw [inheritOverrides_cons, ih others, subject?_inheritOverride, subject?_cons]
    by_cases same : parent.id = s
    · have absent : subject? rest s = none :=
        subject?_eq_none_iff.2 fun o mem equal =>
          fresh (same.trans equal.symm ▸ List.mem_map_of_mem mem)
      rw [if_pos same, if_pos same, absent]
      cases subject? own s <;> rfl
    · rw [if_neg same, if_neg same]

/-- The order of the overrides, own and parent's, decides about no more than the order of
the result. -/
theorem inheritOverrides_perm {own own' parents parents' : List Override}
    (ownDistinct : DistinctSubjects own) (parentsDistinct : DistinctSubjects parents)
    (ownPerm : own.Perm own') (parentsPerm : parents.Perm parents') :
    (inheritOverrides own parents).Perm (inheritOverrides own' parents') := by
  refine perm_of_subject? (ownDistinct.inheritOverrides parents)
    ((ownDistinct.perm ownPerm).inheritOverrides parents') fun s => ?_
  rw [subject?_inheritOverrides parentsDistinct,
    subject?_inheritOverrides (parentsDistinct.perm parentsPerm),
    subject?_perm ownDistinct ownPerm, subject?_perm parentsDistinct parentsPerm]

/-! ## Lists with nothing left to inherit -/

/-- Each parent finds an override for its subject, and nothing open in it that it could
fill. -/
def Saturated (parents own : List Override) : Prop :=
  ∀ parent ∈ parents, ∃ o, subject? own parent.id = some o ∧ o.inheritFrom parent = o

theorem inheritOverride_of_saturated {parent : Override} {own : List Override}
    (h : ∃ o, subject? own parent.id = some o ∧ o.inheritFrom parent = o) :
    inheritOverride parent own = own := by
  obtain ⟨o, found, filled⟩ := h
  induction own with
  | nil => cases found
  | cons first rest ih =>
    rw [subject?_cons] at found
    unfold inheritOverride
    split
    · next same =>
      rw [if_pos same] at found
      cases found
      rw [filled]
    · next apart =>
      rw [if_neg apart] at found
      rw [ih found]

theorem inheritOverrides_of_saturated {parents own : List Override} (h : Saturated parents own) :
    inheritOverrides own parents = own := by
  induction parents with
  | nil => rfl
  | cons parent rest ih =>
    obtain ⟨here, others⟩ := List.forall_mem_cons.1 h
    rw [inheritOverrides_cons, inheritOverride_of_saturated here, ih others]

theorem saturated_inheritOverride (parent : Override) (own : List Override) :
    Saturated [parent] (inheritOverride parent own) := by
  intro p mem
  cases List.mem_singleton.1 mem
  rw [subject?_inheritOverride, if_pos rfl]
  cases subject? own parent.id with
  | none => exact ⟨parent, rfl, parent.inheritFrom_self⟩
  | some o => exact ⟨o.inheritFrom parent, rfl, o.inheritFrom_inheritFrom parent⟩

theorem Saturated.inheritOverride {parents own : List Override} (h : Saturated parents own)
    (other : Override) : Saturated parents (inheritOverride other own) := by
  intro parent mem
  obtain ⟨o, found, filled⟩ := h parent mem
  rw [subject?_inheritOverride]
  by_cases same : other.id = parent.id
  · rw [if_pos same, found]
    exact ⟨o.inheritFrom other, rfl, Override.inheritFrom_of_filled filled other⟩
  · rw [if_neg same]
    exact ⟨o, found, filled⟩

theorem Saturated.inheritOverrides {parents own : List Override} (h : Saturated parents own)
    (others : List Override) : Saturated parents (inheritOverrides own others) := by
  induction others generalizing own with
  | nil => exact h
  | cons other rest ih => exact ih (h.inheritOverride other)

/-- One pass fills whatever can be filled, although settings to inherit may remain. A subject
may have several parents: those that come later leave nothing open to those before them. -/
theorem saturated_inheritOverrides (parents own : List Override) :
    Saturated parents (inheritOverrides own parents) := by
  induction parents generalizing own with
  | nil => exact fun parent mem => nomatch mem
  | cons parent rest ih =>
    have first := (saturated_inheritOverride parent own).inheritOverrides rest
    rw [inheritOverrides_cons]
    exact List.forall_mem_cons.2 ⟨first parent (List.mem_singleton_self parent), ih _⟩

theorem Saturated.perm {parents parents' own own' : List Override} (h : Saturated parents own)
    (parentsPerm : parents.Perm parents') (distinct : DistinctSubjects own)
    (ownPerm : own.Perm own') : Saturated parents' own' := by
  intro parent mem
  rw [← subject?_perm distinct ownPerm]
  exact h parent (parentsPerm.mem_iff.2 mem)

end GuildPlan
