import GuildPlan.Script.Value

/-
  Tables: entries in the order in which they are visited, none of them nil.

  The keys are those that `Value.key?` gives, and no two entries have the same one. The length
  of a table is one of its borders. Which one it is, the language leaves open where a table has
  several of them; so a table carries its length with it. That of a new table is looked for
  from its last item on, by doubling and by halving, and a table that a script changes gets the
  border that is closest to the last one.
-/
namespace GuildPlan.Script

/-! ## Entries -/

namespace Table

/-- Entries of which no two have the same key. -/
abbrev Distinct (entries : List (Value × Value)) : Prop := (entries.map Prod.fst).Nodup

/-- Entries of which none is nil. -/
abbrev Filled (entries : List (Value × Value)) : Prop := ∀ e ∈ entries, e.2 ≠ .nil

/-- Entries with a value put under a key, at the end if the key is new. -/
def putEntry (key value : Value) : List (Value × Value) → List (Value × Value)
  | [] => [(key, value)]
  | (k, v) :: rest => if k = key then (key, value) :: rest else (k, v) :: putEntry key value rest

/-- The items, each with its index. -/
def indexed (n : Nat) : List Value → List (Value × Value)
  | [] => []
  | v :: vs => (.int (n : Nat), v) :: indexed (n + 1) vs

theorem mem_putEntry {key value : Value} {entries : List (Value × Value)} {e : Value × Value}
    (mem : e ∈ putEntry key value entries) : e = (key, value) ∨ e ∈ entries := by
  induction entries with
  | nil => exact .inl (List.mem_singleton.1 mem)
  | cons first rest ih =>
    unfold putEntry at mem
    split at mem
    · exact (List.mem_cons.1 mem).imp id (List.mem_cons_of_mem _)
    · rcases List.mem_cons.1 mem with rfl | mem
      · exact .inr List.mem_cons_self
      · exact (ih mem).imp id (List.mem_cons_of_mem _)

theorem mem_keys_putEntry {key value k : Value} {entries : List (Value × Value)}
    (mem : k ∈ (putEntry key value entries).map Prod.fst) :
    k = key ∨ k ∈ entries.map Prod.fst := by
  obtain ⟨e, there, rfl⟩ := List.mem_map.1 mem
  rcases mem_putEntry there with rfl | there
  · exact .inl rfl
  · exact .inr (List.mem_map_of_mem there)

theorem Distinct.putEntry {entries : List (Value × Value)} (h : Distinct entries)
    (key value : Value) : Distinct (putEntry key value entries) := by
  induction entries with
  | nil => exact List.nodup_cons.2 ⟨List.not_mem_nil, List.nodup_nil⟩
  | cons e rest ih =>
    obtain ⟨k, v⟩ := e
    obtain ⟨fresh, others⟩ := List.nodup_cons.1 h
    unfold Table.putEntry
    split
    · next same => exact List.nodup_cons.2 ⟨same ▸ fresh, others⟩
    · next differ =>
      refine List.nodup_cons.2 ⟨fun mem => ?_, ih others⟩
      exact (mem_keys_putEntry mem).elim differ fresh

theorem Distinct.filter {entries : List (Value × Value)} (h : Distinct entries)
    (p : Value × Value → Bool) : Distinct (entries.filter p) :=
  h.sublist (List.filter_sublist.map Prod.fst)

theorem Filled.putEntry {entries : List (Value × Value)} (h : Filled entries) (key : Value)
    {value : Value} (there : value ≠ .nil) : Filled (putEntry key value entries) := by
  intro e mem
  rcases mem_putEntry mem with rfl | mem
  · exact there
  · exact h e mem

theorem Filled.filter {entries : List (Value × Value)} (h : Filled entries)
    (p : Value × Value → Bool) : Filled (entries.filter p) :=
  fun e mem => h e (List.mem_filter.1 mem).1

theorem filled_filter (entries : List (Value × Value)) :
    Filled (entries.filter (·.2 ≠ .nil)) :=
  fun _ mem => of_decide_eq_true (List.mem_filter.1 mem).2

theorem le_of_mem_indexed {n : Nat} {items : List Value} {k : Value}
    (mem : k ∈ (indexed n items).map Prod.fst) : ∃ i : Nat, n ≤ i ∧ k = .int i := by
  induction items generalizing n with
  | nil => cases mem
  | cons v vs ih =>
    rcases List.mem_cons.1 mem with rfl | mem
    · exact ⟨n, Nat.le_refl n, rfl⟩
    · obtain ⟨i, above, same⟩ := ih mem
      exact ⟨i, Nat.le_of_succ_le above, same⟩

theorem distinct_indexed (n : Nat) (items : List Value) : Distinct (indexed n items) := by
  induction items generalizing n with
  | nil => exact List.nodup_nil
  | cons v vs ih =>
    refine List.nodup_cons.2 ⟨fun mem => ?_, ih (n + 1)⟩
    obtain ⟨i, above, same⟩ := le_of_mem_indexed mem
    exact absurd (Int.ofNat.inj (Value.int.inj same)) (Nat.ne_of_lt above)

/-! ## Borders -/

/-- Whether there is an item at an index. -/
abbrev HasItem (entries : List (Value × Value)) (n : Nat) : Prop :=
  .int n ∈ entries.map Prod.fst

/-- The last of some items in a row, or zero if there is no first item. -/
structure Border (entries : List (Value × Value)) (n : Nat) : Prop where
  last : n = 0 ∨ HasItem entries n
  next : ¬ HasItem entries (n + 1)

/-- The last item of those that follow an index in a row, looked for in so many steps. -/
def lastFrom (entries : List (Value × Value)) : Nat → Nat → Nat
  | 0, n => n
  | fuel + 1, n => if HasItem entries (n + 1) then lastFrom entries fuel (n + 1) else n

/-- The last item that is not behind an index, or zero. -/
def lastUpTo (entries : List (Value × Value)) : Nat → Nat
  | 0 => 0
  | n + 1 => if HasItem entries (n + 1) then n + 1 else lastUpTo entries n

/-- An index between two others after which there is no item, found by halving the distance in
so many steps. -/
def halfway (entries : List (Value × Value)) : Nat → Nat → Nat → Nat
  | 0, low, _ => low
  | fuel + 1, low, high =>
    if high ≤ low + 1 then low
    else
      let middle := (low + high) / 2
      if HasItem entries middle then halfway entries fuel middle high
      else halfway entries fuel low middle

/-- The last index with an item that comes of another one by doubling it again and again. -/
def doubled (entries : List (Value × Value)) : Nat → Nat → Nat
  | 0, n => n
  | fuel + 1, n => if HasItem entries (2 * n) then doubled entries fuel (2 * n) else n

/-- The border of a table that is complete, made with so many items. -/
def borderOf (entries : List (Value × Value)) (n : Nat) : Nat :=
  if n = 0 ∨ HasItem entries n then
    if HasItem entries (n + 1) then
      let last := doubled entries entries.length (max n 1)
      halfway entries last last (2 * last)
    else n
  else if HasItem entries (n - 1) then n - 1
  else halfway entries n 0 n

/-- The border that is found from an index. -/
def borderNear (entries : List (Value × Value)) (n : Nat) : Nat :=
  if n = 0 ∨ HasItem entries n then lastFrom entries entries.length n
  else lastUpTo entries (n - 1)

/-- Whether an entry is an item behind an index. -/
def isBehind (n : Nat) (e : Value × Value) : Bool :=
  match e.1 with
  | .int k => (n : Int) < k
  | _ => false

theorem isBehind_of_lt {n m : Nat} (less : n < m) {e : Value × Value}
    (behind : isBehind m e = true) : isBehind n e = true := by
  unfold isBehind at *
  split at behind
  · exact decide_eq_true (Int.lt_trans (by omega) (of_decide_eq_true behind))
  · cases behind

/-- Of the items behind an index there are more than of those behind one of them. -/
theorem countP_isBehind_lt {entries : List (Value × Value)} {n m : Nat} (less : n < m)
    (there : HasItem entries m) : entries.countP (isBehind m) < entries.countP (isBehind n) := by
  obtain ⟨e, mem, index⟩ := List.mem_map.1 there
  obtain ⟨before, after, rfl⟩ := List.append_of_mem mem
  have fewer (l : List (Value × Value)) : l.countP (isBehind m) ≤ l.countP (isBehind n) :=
    List.countP_mono_left fun _ _ => isBehind_of_lt less
  have here : isBehind n e = true := by
    unfold isBehind
    rw [index]
    exact decide_eq_true (by omega)
  have gone : ¬ isBehind m e = true := by
    unfold isBehind
    rw [index]
    exact fun behind => absurd (of_decide_eq_true behind) (by omega)
  have first := fewer before
  have second := fewer after
  rw [List.countP_append, List.countP_append, List.countP_cons_of_pos here,
    List.countP_cons_of_neg gone]
  omega

/-- Going on from an item, or from zero, leads to a border, if there are steps enough. -/
theorem border_lastFrom {entries : List (Value × Value)} {fuel n : Nat}
    (start : n = 0 ∨ HasItem entries n) (enough : entries.countP (isBehind n) ≤ fuel) :
    Border entries (lastFrom entries fuel n) := by
  induction fuel generalizing n with
  | zero =>
    rw [lastFrom]
    refine ⟨start, fun there => ?_⟩
    have fewer := countP_isBehind_lt (Nat.lt_add_one n) there
    omega
  | succ fuel ih =>
    unfold lastFrom
    split
    · next there =>
      have fewer := countP_isBehind_lt (Nat.lt_add_one n) there
      exact ih (.inr there) (by omega)
    · next gap => exact ⟨start, gap⟩

theorem border_lastUpTo {entries : List (Value × Value)} {n : Nat}
    (gap : ¬ HasItem entries (n + 1)) : Border entries (lastUpTo entries n) := by
  induction n with
  | zero => exact ⟨.inl rfl, gap⟩
  | succ n ih =>
    unfold lastUpTo
    split
    · next there => exact ⟨.inr there, gap⟩
    · next gap => exact ih gap

/-- Halving leads to a border from an index that is zero or has an item and one that has none. -/
theorem border_halfway {entries : List (Value × Value)} {fuel low high : Nat}
    (start : low = 0 ∨ HasItem entries low) (gap : ¬ HasItem entries high) (apart : low < high)
    (enough : high ≤ low + fuel + 1) : Border entries (halfway entries fuel low high) := by
  induction fuel generalizing low high with
  | zero =>
    obtain rfl : high = low + 1 := by omega
    exact ⟨start, gap⟩
  | succ fuel ih =>
    unfold halfway
    split
    · next close =>
      obtain rfl : high = low + 1 := by omega
      exact ⟨start, gap⟩
    · next wide =>
      dsimp only
      split
      · next there => exact ih (.inr there) gap (by omega) (by omega)
      · next missing => exact ih start missing (by omega) (by omega)

/-- Doubling comes to an item that has none at the double of its index. -/
theorem hasItem_doubled {entries : List (Value × Value)} {fuel n : Nat} (pos : 0 < n)
    (there : HasItem entries n) (enough : entries.countP (isBehind n) ≤ fuel) :
    0 < doubled entries fuel n ∧ HasItem entries (doubled entries fuel n) ∧
      ¬ HasItem entries (2 * doubled entries fuel n) := by
  induction fuel generalizing n with
  | zero =>
    refine ⟨pos, there, fun further => ?_⟩
    have fewer := countP_isBehind_lt (by omega : n < 2 * n) further
    omega
  | succ fuel ih =>
    unfold doubled
    split
    · next further =>
      have fewer := countP_isBehind_lt (by omega : n < 2 * n) further
      exact ih (by omega) further (by omega)
    · next gap => exact ⟨pos, there, gap⟩

theorem border_borderOf (entries : List (Value × Value)) (n : Nat) :
    Border entries (borderOf entries n) := by
  unfold borderOf
  split
  · next start =>
    split
    · next there =>
      have first : HasItem entries (max n 1) := by
        rcases start with rfl | item
        · exact there
        · rcases Nat.eq_zero_or_pos n with rfl | pos
          · exact there
          · rwa [Nat.max_eq_left pos]
      obtain ⟨pos, last, gap⟩ := hasItem_doubled (Nat.le_max_right n 1) first List.countP_le_length
      exact border_halfway (.inr last) gap (by omega) (by omega)
    · next gap => exact ⟨start, gap⟩
  · next gap =>
    rw [not_or] at gap
    have some : 0 < n := Nat.pos_of_ne_zero gap.1
    split
    · next before =>
      refine ⟨.inr before, ?_⟩
      rw [Nat.sub_add_cancel some]
      exact gap.2
    · exact border_halfway (.inl rfl) gap.2 some (by omega)

theorem border_borderNear (entries : List (Value × Value)) (n : Nat) :
    Border entries (borderNear entries n) := by
  unfold borderNear
  split
  · next start => exact border_lastFrom start List.countP_le_length
  · next gap =>
    rw [not_or] at gap
    obtain ⟨n, rfl⟩ := Nat.exists_eq_succ_of_ne_zero gap.1
    exact border_lastUpTo gap.2

end Table

/-! ## Tables -/

structure Table where
  entries : List (Value × Value) := []
  distinct : Table.Distinct entries := by exact List.nodup_nil
  filled : Table.Filled entries := by exact List.forall_mem_nil _
  length : Nat := 0
  bordered : Table.Border entries length := by exact ⟨.inl rfl, List.not_mem_nil⟩
  metatable : Option TableRef := none

namespace Table

instance : EmptyCollection Table := ⟨{}⟩
instance : Inhabited Table := ⟨∅⟩

/-- The value under a key; nil if there is none. -/
def get (t : Table) (key : Value) : Value := (t.entries.lookup key).getD .nil

/-- The value under any value, which may be no key. -/
def find (t : Table) (v : Value) : Value :=
  match v.key? with
  | some key => t.get key
  | none => .nil

/-- The table with other entries. -/
def withEntries (t : Table) (entries : List (Value × Value)) (distinct : Distinct entries)
    (filled : Filled entries) : Table :=
  { t with
    entries, distinct, filled
    length := borderNear entries t.length
    bordered := border_borderNear entries t.length }

/-- Puts a value under a key; nil takes away what is there. -/
def set (t : Table) (key value : Value) : Table :=
  if missing : value = .nil then
    t.withEntries (t.entries.filter (·.1 ≠ key)) (t.distinct.filter _) (t.filled.filter _)
  else
    t.withEntries (putEntry key value t.entries) (t.distinct.putEntry key value)
      (t.filled.putEntry key missing)

/-- The table of positional items. -/
def ofItems (items : List Value) : Table where
  entries := (indexed 1 items).filter (·.2 ≠ .nil)
  distinct := (distinct_indexed 1 items).filter _
  filled := filled_filter _
  length := borderOf _ items.length
  bordered := border_borderOf _ items.length

/-- How many positional items are put into a new table at a time. -/
def batch : Nat := 50

/-- Whether a key is the index of one of the last of `count` items, those that fill no
batch. -/
def isPending (count : Nat) : Value → Bool
  | .int n => (count - count % batch : Nat) < n && n ≤ count
  | _ => false

/-- A new table of `count` items with a keyed entry in it. The items that fill no batch are
put there after the entries, so they win over an entry with their index. -/
def withEntry (t : Table) (count : Nat) (key value : Value) : Table :=
  if isPending count key then t else t.set key value

/-- A new table once it is complete, made with so many positional items. -/
def complete (t : Table) (count : Nat) : Table :=
  { t with
    length := borderOf t.entries count
    bordered := border_borderOf t.entries count }

/-- The table of named values. -/
def ofFields (fields : List (String × Value)) : Table :=
  fields.foldl (fun t (name, v) => t.set (.text name) v) ∅

/-- The same entries in whatever order, and any of their borders: what the language leaves open
of a table. -/
structure Rearranged (t t' : Table) : Prop where
  entries : t.entries.Perm t'.entries
  metatable : t'.metatable = t.metatable

end Table

/-- The tables that exist, by their references. -/
abbrev Heap := Array Table

namespace Heap

def table (h : Heap) (r : TableRef) : Table := h.getD r.index ∅

/-- The heap with one more table, and the reference to it. -/
def add (h : Heap) (t : Table) : TableRef × Heap := (⟨h.size⟩, h.push t)

def update (h : Heap) (r : TableRef) (f : Table → Table) : Heap := h.modify r.index f

/-- The same tables, each of them rearranged in a way of its own. -/
def Rearranged (h h' : Heap) : Prop := ∀ r, (h.table r).Rearranged (h'.table r)

end Heap
end GuildPlan.Script
