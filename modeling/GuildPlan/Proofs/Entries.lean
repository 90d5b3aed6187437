import GuildPlan.Proofs.Conversion
import Mathlib.Data.List.Nodup
import Mathlib.Data.List.Perm.Subperm

/-
  What becomes of the entries of a table. Its JSON holds each of them exactly once, at every
  depth, just where no table is tangled. A table is tangled if it has a gap and, by chance, as
  many entries as its length, whichever of its borders that is: then it is taken for a list, and
  the entries that are no items are dropped. Otherwise it is tangled if an index and a text have one name: then one of the
  two entries overwrites the other.
-/
namespace GuildPlan.Script

/-! ## Sequences -/

namespace Table
variable {t : Table} {m n : Nat}

def keys (t : Table) : List Value := t.entries.map Prod.fst

/-- The keys are the indices up to `n`, without a gap, and nothing else. -/
structure Sequence (t : Table) (n : Nat) : Prop where
  pos : 0 < n
  mem_keys : ∀ k, k ∈ t.keys ↔ ∃ i < n, k = .int (i + 1 : Nat)

theorem get_ne_nil_iff {key : Value} : t.get key ≠ .nil ↔ key ∈ t.keys := by
  constructor
  · intro there
    exact List.mem_map_of_mem (t.mem_of_get there)
  · intro mem
    obtain ⟨⟨k, v⟩, there, rfl⟩ := List.mem_map.1 mem
    rw [t.get_of_mem there]
    exact t.filled _ there

/-- The positive indices among the keys are those up to `m`. Other keys do not matter. -/
def Indexed (t : Table) (m : Nat) : Prop :=
  ∀ i : Int, 0 < i → (Value.int i ∈ t.keys ↔ i ≤ m)

/-- The first indices, as keys. -/
def indices (n : Nat) : List Value := (List.range n).map fun i => .int (i + 1 : Nat)

theorem mem_indices {k : Value} : k ∈ indices n ↔ ∃ i < n, k = .int (i + 1 : Nat) := by
  simp [indices, eq_comm]

theorem nodup_indices (n : Nat) : (indices n).Nodup :=
  List.nodup_range.map fun _ _ same => Nat.succ.inj (Int.ofNat.inj (Value.int.inj same))

theorem length_indices (n : Nat) : (indices n).length = n := by
  simp [indices]

theorem indexed_of_mem_keys (same : ∀ k, k ∈ t.keys ↔ k ∈ indices n) : t.Indexed n := by
  intro i pos
  rw [same, mem_indices]
  constructor
  · rintro ⟨k, less, equal⟩
    cases equal
    omega
  · intro le
    exact ⟨(i - 1).toNat, by omega, congrArg Value.int (by omega)⟩

theorem Indexed.mem_keys (indexed : t.Indexed m) {i : Nat} :
    Value.int (i + 1 : Nat) ∈ t.keys ↔ i < m := by
  rw [indexed _ (by omega)]
  omega

theorem Indexed.indices_subset (indexed : t.Indexed m) : indices m ⊆ t.keys := by
  intro k mem
  obtain ⟨i, less, rfl⟩ := mem_indices.1 mem
  exact indexed.mem_keys.2 less

/-- A table without holes has one border, so its length counts its indices. -/
theorem Indexed.length (indexed : t.Indexed m) : t.length = m := by
  have upTo : t.length ≤ m := by
    rcases t.bordered.last with none | there
    · exact none ▸ Nat.zero_le m
    · rcases Nat.eq_zero_or_pos t.length with none | pos
      · exact none ▸ Nat.zero_le m
      · exact Int.ofNat_le.1 ((indexed _ (Int.natCast_pos.2 pos)).1 there)
  have beyond : ¬ t.length + 1 ≤ m := fun more =>
    t.bordered.next ((indexed _ (by omega)).2 (Int.ofNat_le.2 more))
  omega

/-- What stands under one of the first indices is the item there. -/
theorem eq_item_of_mem {e : Value × Value} (mem : e ∈ t.entries) (index : e.1 ∈ indices n) :
    ∃ i < n, e = (.int (i + 1 : Nat), t.get (.int (i + 1 : Nat))) := by
  obtain ⟨k, v⟩ := e
  obtain ⟨i, less, rfl⟩ := mem_indices.1 index
  exact ⟨i, less, Prod.ext rfl (t.get_of_mem mem).symm⟩

namespace Sequence

theorem indexed (h : t.Sequence n) : t.Indexed n :=
  indexed_of_mem_keys fun k => (h.mem_keys k).trans mem_indices.symm

theorem entries_length (h : t.Sequence n) : t.entries.length = n := by
  have perm : t.keys.Perm (indices n) :=
    (List.perm_ext_iff_of_nodup t.distinct (nodup_indices n)).2 fun k =>
      (h.mem_keys k).trans mem_indices.symm
  rw [← length_indices n, ← perm.length_eq, keys, List.length_map]

theorem length (h : t.Sequence n) : t.length = n := h.indexed.length

theorem full (h : t.Sequence n) : t.Full :=
  ⟨h.length.symm ▸ h.pos, h.entries_length.trans h.length.symm⟩

/-- Each entry of a sequence is the item at its index. -/
theorem exists_index (h : t.Sequence n) {e : Value × Value} (mem : e ∈ t.entries) :
    ∃ i < n, t.get (.int (i + 1 : Nat)) = e.2 := by
  have index : e.1 ∈ indices n := mem_indices.2 ((h.mem_keys e.1).1 (List.mem_map_of_mem mem))
  obtain ⟨i, less, same⟩ := eq_item_of_mem mem index
  exact ⟨i, less, (congrArg Prod.snd same).symm⟩

end Sequence

theorem Sequence.of_keys (pos : 0 < n)
    (keys : t.keys = (List.range n).map fun i => .int (i + 1 : Nat)) : t.Sequence n where
  pos := pos
  mem_keys _ := keys ▸ mem_indices

/-- A full table is a sequence, and in any other table no two keys have one name. -/
structure Tidy (t : Table) : Prop where
  gapless : t.Full → ∃ n, t.Sequence n
  unambiguous : ¬t.Full → (t.entries.map fun e => e.1.memberName?).Nodup

end Table

/-! ## Whole conversions -/

/-- The JSON of a value has all that is in the value, once. A sequence is the list of its
items. Any other table is an object with one member for each entry, under the entry's name. -/
inductive Whole (h : Heap) (g : Registry) : Value → Json → Prop
  | plain {v : Value} {j : Json} (other : ∀ r, v ≠ .table r) (stands : Stands h g v j) :
    Whole h g v j
  | list {r : TableRef} {items : List Json} (sequence : (h.table r).Sequence items.length)
    (each : ∀ n (inside : n < items.length),
      Whole h g ((h.table r).get (.int (n + 1 : Nat))) items[n]) :
    Whole h g (.table r) (.arr items)
  | record {r : TableRef} {members : Members} (other : ∀ n, ¬(h.table r).Sequence n)
    (names : ((h.table r).entries.map fun e => e.1.memberName?).Perm (members.keys.map some))
    (distinct : members.keys.Nodup)
    (each : ∀ e ∈ (h.table r).entries, ∀ m ∈ members, e.1.memberName? = some m.1 →
      Whole h g e.2 m.2) :
    Whole h g (.table r) (.obj members)

namespace Heap

/-- A table is somewhere in a value. -/
inductive Reaches (h : Heap) : Value → TableRef → Prop
  | here (r : TableRef) : h.Reaches (.table r) r
  | entry {r r' : TableRef} {e : Value × Value} (mem : e ∈ (h.table r).entries)
    (below : h.Reaches e.2 r') : h.Reaches (.table r) r'

/-- No table in a value is tangled. -/
def Untangled (h : Heap) (v : Value) : Prop := ∀ r, h.Reaches v r → (h.table r).Tidy

theorem Untangled.entry {h : Heap} {r : TableRef} {e : Value × Value}
    (untangled : h.Untangled (.table r)) (mem : e ∈ (h.table r).entries) : h.Untangled e.2 :=
  fun r' below => untangled r' (.entry mem below)

theorem Untangled.table {h : Heap} {r : TableRef} (tidy : (h.table r).Tidy)
    (entries : ∀ e ∈ (h.table r).entries, h.Untangled e.2) : h.Untangled (.table r) := by
  intro r' reach
  cases reach with
  | here => exact tidy
  | entry mem below => exact entries _ mem r' below

end Heap

variable {h : Heap} {g : Registry}

/-- An entry is found again by its name, where no other has it. -/
theorem eq_of_memberName? {entries : List (Value × Value)}
    (distinct : (entries.map fun e => e.1.memberName?).Nodup) {e e' : Value × Value}
    (mem : e ∈ entries) (mem' : e' ∈ entries) (same : e.1.memberName? = e'.1.memberName?) :
    e = e' :=
  List.inj_on_of_nodup_map distinct mem mem' same

namespace Becomes

theorem whole {v : Value} {j : Json} (becomes : Becomes h g v j) (untangled : h.Untangled v) :
    Whole h g v j := by
  induction becomes with
  | nil => exact .plain nofun .nil
  | null => exact .plain nofun .null
  | bool b => exact .plain nofun (.bool b)
  | int n => exact .plain nofun (.int n)
  | float x => exact .plain nofun (.float x)
  | text s => exact .plain nofun (.text s)
  | function kept => exact .plain nofun (.function kept)
  | @list r items full sized _ ih =>
    obtain ⟨n, sequence⟩ := (untangled r (.here r)).gapless full
    have same : n = items.length := sequence.length.symm.trans sized.symm
    subst same
    refine .list sequence fun i inside => ih i inside ?_
    have there := (sequence.mem_keys _).2 ⟨i, inside, rfl⟩
    exact untangled.entry (Table.mem_of_get _ (Table.get_ne_nil_iff.2 there))
  | @record r members source other ascending _ complete there named _ ih =>
    have distinct := (untangled r (.here r)).unambiguous other
    refine .record (fun n sequence => other sequence.full) ?_ ascending.nodup_keys ?_
    · have options : (members.keys.map some).Nodup :=
        ascending.nodup_keys.map fun _ _ => Option.some.inj
      refine (List.perm_ext_iff_of_nodup distinct options).2 fun name => ?_
      constructor
      · intro mem
        obtain ⟨e, inside, rfl⟩ := List.mem_map.1 mem
        obtain ⟨key, known, same⟩ := complete e inside
        exact same ▸ List.mem_map_of_mem known
      · intro mem
        obtain ⟨key, known, rfl⟩ := List.mem_map.1 mem
        obtain ⟨m, inside, rfl⟩ := List.mem_map.1 known
        exact named m inside ▸ List.mem_map_of_mem (there m inside)
    · intro e mem m inside same
      cases eq_of_memberName? distinct mem (there m inside) (same.trans (named m inside).symm)
      exact ih m inside (untangled.entry (there m inside))

theorem untangled {v : Value} {j : Json} (becomes : Becomes h g v j) (whole : Whole h g v j) :
    h.Untangled v := by
  induction becomes with
  | @list r items full sized _ ih =>
    cases whole with
    | plain other => exact absurd rfl (other r)
    | list sequence each =>
      refine .table ⟨fun _ => ⟨_, sequence⟩, fun other => absurd full other⟩ fun e mem => ?_
      obtain ⟨i, inside, same⟩ := sequence.exists_index mem
      exact same ▸ ih i inside (each i inside)
  | @record r members source other _ _ complete there named _ ih =>
    cases whole with
    | plain plain => exact absurd rfl (plain r)
    | record _ names distinct each =>
      have unambiguous := names.nodup_iff.2 (distinct.map fun _ _ => Option.some.inj)
      refine .table ⟨fun full => absurd full other, fun _ => unambiguous⟩ fun e mem => ?_
      obtain ⟨key, known, same⟩ := complete e mem
      obtain ⟨m, inside, rfl⟩ := List.mem_map.1 known
      cases eq_of_memberName? unambiguous mem (there m inside) (same.trans (named m inside).symm)
      exact ih m inside (each _ mem m inside same)
  | _ => exact fun _ reach => nomatch reach

end Becomes

/-- The JSON of a value has each entry of each table in it exactly once if and only if none of
the tables is tangled. -/
theorem toJson_whole_iff {location : Location} {v : Value} {j : Json} {g' : Registry}
    (ok : toJson h location v g = .ok j g') : Whole h g' v j ↔ h.Untangled v := by
  have becomes := toJson_becomes ok
  exact ⟨becomes.untangled, becomes.whole⟩

/-- A record with a list in it. -/
def album : Heap :=
  #[Table.ofFields [("name", .text "news"), ("tags", .table ⟨1⟩)],
    Table.ofItems [.int 5, .int 8]]

theorem toJson_whole_iff_album :
    toJson album ⟨"x", []⟩ (.table ⟨0⟩) {} =
      .ok (.obj [("name", .str "news"), ("tags", .arr [.int 5, .int 8])]) {} ∧
    Whole album {} (.table ⟨0⟩)
      (.obj [("name", .str "news"), ("tags", .arr [.int 5, .int 8])]) := by
  have ok : toJson album ⟨"x", []⟩ (.table ⟨0⟩) {} =
      .ok (.obj [("name", .str "news"), ("tags", .arr [.int 5, .int 8])]) {} := rfl
  have tags : album.Untangled (.table ⟨1⟩) := by
    refine .table ⟨fun _ => ⟨2, .of_keys (by decide) rfl⟩, fun other => absurd ?_ other⟩ ?_
    · exact ⟨by decide, rfl⟩
    · intro e mem
      rcases List.mem_pair.1 mem with rfl | rfl
      all_goals exact fun _ reach => nomatch reach
  refine ⟨ok, (toJson_whole_iff ok).2 (.table ⟨fun full => absurd full.1 (by decide), ?_⟩ ?_)⟩
  · intro _
    show [(Value.text "name").memberName?, (Value.text "tags").memberName?].Nodup
    rw [memberName?_text, memberName?_text]
    decide
  · intro e mem
    rcases List.mem_pair.1 mem with rfl | rfl
    · exact fun _ reach => nomatch reach
    · exact tags

/-- Three items with a gap between them and an entry with a name, as many entries as the
length. -/
def gapped : Heap := #[(Table.ofItems [.int 1, .nil, .int 3]).set (.text "x") (.int 1)]

/-- An item, and an entry with the name of its index. -/
def clashing : Heap := #[(Table.ofItems [.text "a"]).set (.text "1") (.text "b")]

/-- The named entry of the one table is dropped, and the item of the other is overwritten. -/
theorem entries_lost :
    (toJson gapped ⟨"x", []⟩ (.table ⟨0⟩) {} = .ok (.arr [.int 1, .null, .int 3]) {} ∧
      ¬Whole gapped {} (.table ⟨0⟩) (.arr [.int 1, .null, .int 3])) ∧
    toJson clashing ⟨"x", []⟩ (.table ⟨0⟩) {} = .ok (.obj [("1", .str "b")]) {} ∧
      ¬Whole clashing {} (.table ⟨0⟩) (.obj [("1", .str "b")]) := by
  refine ⟨⟨rfl, fun whole => ?_⟩, rfl, fun whole => ?_⟩
  · cases whole with
    | plain other => exact other _ rfl
    | list sequence _ =>
      obtain ⟨i, _, same⟩ := (sequence.mem_keys (.text "x")).1 (by decide)
      cases same
  · cases whole with
    | plain other => exact other _ rfl
    | record _ names => exact absurd names.length_eq (by decide)

end GuildPlan.Script
