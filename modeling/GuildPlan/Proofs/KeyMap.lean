import GuildPlan.KeyMap
import Mathlib.Data.List.Induction

/-
  Maps by their look-ups. Insertion changes the look-up of one key and no other, and two
  maps with the same look-ups are the same map: the order of the entries leaves no choice.
-/
namespace GuildPlan

variable {α : Type}

theorem mem_of_lookup {κ : Type} [BEq κ] [LawfulBEq κ] {entries : List (κ × α)} {key : κ}
    {value : α} (found : entries.lookup key = some value) : (key, value) ∈ entries := by
  obtain ⟨before, after, whole, _⟩ := List.lookup_eq_some_iff.1 found
  rw [whole]
  exact List.mem_append_right before List.mem_cons_self

section Lookup
variable {κ : Type} [BEq κ] [LawfulBEq κ] [DecidableEq κ]

theorem lookup_cons_eq (key other : κ) (value : α) (rest : List (κ × α)) :
    ((key, value) :: rest).lookup other =
      if other = key then some value else rest.lookup other := by
  rw [List.lookup_cons]
  by_cases same : other = key
  · simp [same]
  · have apart : (other == key) = false := by simpa using same
    simp [same, apart]

/-- Entries taken out by their keys are not found any more, and all others are. -/
theorem lookup_filter (stays : κ → Bool) (entries : List (κ × α)) (key : κ) :
    (entries.filter fun e => stays e.1).lookup key =
      if stays key then entries.lookup key else none := by
  induction entries with
  | nil => exact (ite_self none).symm
  | cons e rest ih =>
    obtain ⟨k, v⟩ := e
    rw [lookup_cons_eq, List.filter_cons]
    by_cases kept : stays k = true
    · rw [if_pos kept, lookup_cons_eq, ih]
      by_cases same : key = k
      · rw [same, if_pos rfl, if_pos kept, if_pos rfl]
      · rw [if_neg same, if_neg same]
    · rw [if_neg kept, ih]
      by_cases same : key = k
      · rw [same, if_neg kept, if_neg kept]
      · rw [if_neg same]

end Lookup

theorem lookup_insertEntry (key other : String) (value : α) (entries : List (String × α)) :
    (insertEntry key value entries).lookup other =
      if other = key then some value else entries.lookup other := by
  induction entries with
  | nil => exact lookup_cons_eq key other value []
  | cons e rest ih =>
    obtain ⟨k, v⟩ := e
    unfold insertEntry
    split
    · exact lookup_cons_eq key other value _
    · split
      · next equal =>
        subst equal
        rw [lookup_cons_eq, lookup_cons_eq]
        split <;> rfl
      · next different =>
        rw [lookup_cons_eq, lookup_cons_eq, ih]
        by_cases same : other = key
        · rw [same, if_neg different, if_pos rfl, if_pos rfl]
        · rw [if_neg same, if_neg same]

theorem lookup_eq_none_iff {entries : List (String × α)} {key : String} :
    entries.lookup key = none ↔ key ∉ entries.map Prod.fst := by
  rw [List.lookup_eq_none_iff, List.mem_map]
  constructor
  · rintro absent ⟨e, mem, rfl⟩
    exact bne_iff_ne.1 (absent e mem) rfl
  · intro absent e mem
    exact bne_iff_ne.2 fun same => absent ⟨e, mem, same.symm⟩

/-- Of several entries that are put in, of which no two have one key, each is found. -/
theorem lookup_insertEntries {entries before : List (String × α)} {key : String}
    (distinct : (entries.map Prod.fst).Nodup) :
    (entries.foldl (fun before e => insertEntry e.1 e.2 before) before).lookup key =
      (entries.lookup key).or (before.lookup key) := by
  induction entries generalizing before with
  | nil => rfl
  | cons e rest ih =>
    obtain ⟨k, v⟩ := e
    obtain ⟨fresh, others⟩ := List.nodup_cons.1 distinct
    rw [List.foldl_cons, ih others, lookup_insertEntry, lookup_cons_eq]
    by_cases same : key = k
    · rw [same, if_pos rfl, if_pos rfl, lookup_eq_none_iff.2 fresh]
      rfl
    · rw [if_neg same, if_neg same]

theorem mem_keys_insertEntry {key other : String} {value : α} {entries : List (String × α)} :
    other ∈ (insertEntry key value entries).map Prod.fst ↔
      other = key ∨ other ∈ entries.map Prod.fst := by
  induction entries with
  | nil => simp [insertEntry]
  | cons e rest ih =>
    obtain ⟨k, v⟩ := e
    unfold insertEntry
    split
    · simp
    · split
      · next equal => simp [equal]
      · simp [ih, or_left_comm]

theorem Ascending.nodup_keys {entries : List (String × α)} (h : Ascending entries) :
    (entries.map Prod.fst).Nodup := by
  refine List.pairwise_map.2 (List.Pairwise.imp ?_ h)
  intro a b less equal
  rw [equal] at less
  exact String.lt_irrefl _ less

theorem lookup_eq_some_iff_mem {κ : Type} [BEq κ] [LawfulBEq κ] {entries : List (κ × α)}
    (distinct : (entries.map Prod.fst).Nodup) {key : κ} {value : α} :
    entries.lookup key = some value ↔ (key, value) ∈ entries := by
  induction entries with
  | nil => simp
  | cons e rest ih =>
    obtain ⟨k, v⟩ := e
    obtain ⟨fresh, others⟩ := List.nodup_cons.1 distinct
    rw [List.lookup_cons, List.mem_cons, Prod.mk.injEq]
    by_cases same : key = k
    · subst same
      have absent : (key, value) ∉ rest := fun mem =>
        fresh (List.mem_map.2 ⟨(key, value), mem, rfl⟩)
      simp [absent, eq_comm]
    · have apart : (key == k) = false := beq_eq_false_iff_ne.2 same
      simp [same, apart, ih others]

namespace KeyMap

theorem get?_insert (m : KeyMap α) (key other : String) (value : α) :
    (m.insert key value).get? other = if other = key then some value else m.get? other :=
  lookup_insertEntry key other value m.entries

theorem mem_entries (m : KeyMap α) {key : String} {value : α} :
    (key, value) ∈ m.entries ↔ m.get? key = some value :=
  (lookup_eq_some_iff_mem m.ascending.nodup_keys).symm

theorem nodup_entries (m : KeyMap α) : m.entries.Nodup :=
  (List.pairwise_map.1 m.ascending.nodup_keys).imp fun apart equal =>
    apart (congrArg Prod.fst equal)

/-- Maps with the same look-ups are equal. -/
theorem ext_get? {m n : KeyMap α} (same : ∀ key, m.get? key = n.get? key) : m = n := by
  have members : ∀ e, e ∈ m.entries ↔ e ∈ n.entries := by
    rintro ⟨key, value⟩
    rw [m.mem_entries, n.mem_entries, same key]
  have perm : m.entries.Perm n.entries :=
    (List.perm_ext_iff_of_nodup m.nodup_entries n.nodup_entries).2 @members
  have equal : m.entries = n.entries :=
    perm.eq_of_pairwise (fun a b _ _ less greater => absurd greater (String.lt_asymm less))
      m.ascending n.ascending
  cases m
  cases n
  cases equal
  rfl

theorem entries_ofList (entries : List (String × α)) :
    (ofList entries).entries =
      entries.foldl (fun before e => insertEntry e.1 e.2 before) [] :=
  (List.foldl_hom KeyMap.entries fun _ _ => rfl).symm

theorem get?_ofList {entries : List (String × α)} {key : String}
    (distinct : (entries.map Prod.fst).Nodup) : (ofList entries).get? key = entries.lookup key := by
  unfold get?
  rw [entries_ofList, lookup_insertEntries distinct]
  exact Option.or_none

/-- Of several entries with one key the last is found. -/
theorem get?_ofList_reverse (entries : List (String × α)) (key : String) :
    (ofList entries).get? key = entries.reverse.lookup key := by
  unfold get?
  rw [entries_ofList]
  induction entries using List.reverseRecOn with
  | nil => rfl
  | append_singleton entries e ih =>
    obtain ⟨k, v⟩ := e
    rw [List.foldl_append, List.reverse_append, List.foldl_cons, List.foldl_nil,
      lookup_insertEntry, List.reverse_singleton, List.singleton_append, lookup_cons_eq, ih]

/-- The value that is found under a key is that of the key's last entry. -/
theorem get?_ofList_eq_some {entries : List (String × α)} {key : String} {value : α} :
    (ofList entries).get? key = some value ↔
      ∃ before after, entries = before ++ (key, value) :: after ∧ key ∉ after.map Prod.fst := by
  rw [get?_ofList_reverse, List.lookup_eq_some_iff]
  constructor
  · rintro ⟨later, earlier, whole, apart⟩
    refine ⟨earlier.reverse, later.reverse, ?_, ?_⟩
    · rw [← List.reverse_inj, whole]
      simp
    · intro mem
      rw [List.map_reverse, List.mem_reverse, List.mem_map] at mem
      obtain ⟨e, mem, same⟩ := mem
      simpa [same] using apart e mem
  · rintro ⟨before, after, rfl, apart⟩
    refine ⟨after.reverse, before.reverse, by simp, fun e mem => bne_iff_ne.2 ?_⟩
    rintro rfl
    exact apart (List.mem_map_of_mem (List.mem_reverse.1 mem))

/-- Entries of which each key has but one value, however often it occurs. -/
theorem get?_ofList_eq {entries : List (String × α)} {look : String → Option α}
    (same : ∀ key value, (key, value) ∈ entries ↔ look key = some value) (key : String) :
    (ofList entries).get? key = look key := by
  rw [get?_ofList_reverse]
  cases found : entries.reverse.lookup key with
  | some value => exact ((same key value).1 (List.mem_reverse.1 (mem_of_lookup found))).symm
  | none =>
    rw [lookup_eq_none_iff, List.map_reverse, List.mem_reverse] at found
    cases looked : look key with
    | none => rfl
    | some value => exact absurd (List.mem_map_of_mem ((same key value).2 looked)) found

/-- A map is the map of its entries. -/
theorem ofList_entries (m : KeyMap α) : ofList m.entries = m :=
  ext_get? fun _ => get?_ofList m.ascending.nodup_keys

end KeyMap

namespace KeySet

theorem contains_add (s : KeySet) (key other : String) :
    (s.add key).contains other = true ↔ s.contains other = true ∨ other = key := by
  rw [KeySet.add, KeyMap.contains, KeyMap.get?_insert, KeyMap.contains]
  split
  · next same => simp [same]
  · next apart => simp [apart]

theorem contains_foldl_add (s : KeySet) (keys : List String) (key : String) :
    (keys.foldl KeySet.add s).contains key = true ↔ s.contains key = true ∨ key ∈ keys := by
  induction keys generalizing s with
  | nil => simp
  | cons k keys ih => rw [List.foldl_cons, ih, contains_add, List.mem_cons, or_assoc]

/-- Sets with the same members are equal. -/
theorem ext {s t : KeySet} (same : ∀ key, s.contains key = true ↔ t.contains key = true) :
    s = t := by
  refine KeyMap.ext_get? fun key => ?_
  have members : (s.get? key).isSome = (t.get? key).isSome := Bool.eq_iff_iff.2 (same key)
  cases left : s.get? key <;> cases right : t.get? key
  · rfl
  · simp [left, right] at members
  · simp [left, right] at members
  · rfl

end KeySet
end GuildPlan
