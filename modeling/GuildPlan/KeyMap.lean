/-
  Finite maps with text keys, kept in code point order of their keys.

  The order of the entries is part of the type, so two maps with the same look-ups are
  equal and a map is always written in the same order.
-/
namespace GuildPlan

/-- A list of entries whose keys strictly increase. -/
abbrev Ascending {α : Type} (entries : List (String × α)) : Prop :=
  entries.Pairwise (·.1 < ·.1)

/-- Puts an entry at its place by key, in the place of one with the same key. -/
def insertEntry {α : Type} (key : String) (value : α) : List (String × α) → List (String × α)
  | [] => [(key, value)]
  | (k, v) :: rest =>
    if key < k then (key, value) :: (k, v) :: rest
    else if key = k then (key, value) :: rest
    else (k, v) :: insertEntry key value rest

theorem mem_insertEntry {α : Type} {key : String} {value : α} {entries : List (String × α)}
    {e : String × α} (h : e ∈ insertEntry key value entries) :
    e = (key, value) ∨ e ∈ entries := by
  induction entries with
  | nil => exact .inl (List.mem_singleton.1 h)
  | cons x rest ih =>
    obtain ⟨k, v⟩ := x
    simp only [insertEntry] at h
    split at h
    · exact List.mem_cons.1 h
    · split at h
      · rcases List.mem_cons.1 h with h | h
        · exact .inl h
        · exact .inr (List.mem_cons_of_mem _ h)
      · rcases List.mem_cons.1 h with h | h
        · exact .inr (h ▸ List.mem_cons_self)
        · exact (ih h).imp id (List.mem_cons_of_mem _)

theorem ascending_insertEntry {α : Type} (key : String) (value : α)
    {entries : List (String × α)} (h : Ascending entries) :
    Ascending (insertEntry key value entries) := by
  induction entries with
  | nil => simp [insertEntry]
  | cons x rest ih =>
    obtain ⟨k, v⟩ := x
    obtain ⟨first, others⟩ := List.pairwise_cons.1 h
    simp only [insertEntry]
    split
    · next less =>
      refine List.pairwise_cons.2 ⟨fun e he => ?_, h⟩
      rcases List.mem_cons.1 he with rfl | he
      · exact less
      · exact String.lt_trans less (first e he)
    · next notLess =>
      split
      · next same => exact List.pairwise_cons.2 ⟨fun e he => same ▸ first e he, others⟩
      · next differ =>
        refine List.pairwise_cons.2 ⟨fun e he => ?_, ih others⟩
        rcases mem_insertEntry he with rfl | he
        · rcases String.le_total k key with le | le
          · exact Classical.byContradiction fun h =>
              differ (String.le_antisymm (String.not_lt.1 h) le)
          · exact absurd (String.le_antisymm (String.not_lt.1 notLess) le).symm differ
        · exact first e he

/-- A map from text keys, its entries in ascending order of the keys. -/
structure KeyMap (α : Type) where
  entries : List (String × α) := []
  ascending : Ascending entries := by exact List.Pairwise.nil
  deriving DecidableEq

namespace KeyMap
variable {α β : Type}

instance : EmptyCollection (KeyMap α) := ⟨{}⟩
instance : Inhabited (KeyMap α) := ⟨∅⟩

def get? (m : KeyMap α) (key : String) : Option α := m.entries.lookup key

def contains (m : KeyMap α) (key : String) : Bool := (m.get? key).isSome

def keys (m : KeyMap α) : List String := m.entries.map Prod.fst

def insert (m : KeyMap α) (key : String) (value : α) : KeyMap α :=
  ⟨insertEntry key value m.entries, ascending_insertEntry key value m.ascending⟩

/-- The map of a list of entries; the last of several with one key counts. -/
def ofList (entries : List (String × α)) : KeyMap α :=
  entries.foldl (fun m e => m.insert e.1 e.2) ∅

/-- The same keys with other values. -/
def map (f : α → β) (m : KeyMap α) : KeyMap β :=
  ⟨m.entries.map fun e => (e.1, f e.2), List.pairwise_map.2 m.ascending⟩

end KeyMap

/-- A finite set of texts in code point order. -/
abbrev KeySet := KeyMap Unit

/-- The set with one more member. -/
def KeySet.add (s : KeySet) (key : String) : KeySet := s.insert key ()

end GuildPlan
