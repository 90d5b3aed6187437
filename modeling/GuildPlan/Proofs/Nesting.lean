import GuildPlan.Proofs.Entries

/-
  Which values have a JSON form. Tables refer to tables, and may refer back to themselves, so
  nothing but a count of levels makes an end. Where no table has a hole, a value is accepted
  just if tables nest in it no deeper than the limit, all keys can be names of members, and
  everything else in it has a form of its own; then no table is inside itself, and the form nests
  no deeper than the limit either.
-/
namespace GuildPlan

/-! ## Levels of JSON -/

/-- Lists and objects nest at most so deep in a value. Markers do not count. -/
inductive Json.NestsWithin : Nat → Json → Prop
  | null (n : Nat) : NestsWithin n .null
  | bool (n : Nat) (b : Bool) : NestsWithin n (.bool b)
  | int (n : Nat) (i : Int) : NestsWithin n (.int i)
  | float (n : Nat) (x : Double) : NestsWithin n (.float x)
  | str (n : Nat) (s : String) : NestsWithin n (.str s)
  | marker (n : Nat) (handle : Handle) : NestsWithin n handle.marker
  | arr {n : Nat} {items : List Json} (each : ∀ v ∈ items, NestsWithin n v) :
    NestsWithin (n + 1) (.arr items)
  | obj {n : Nat} {members : Members} (each : ∀ m ∈ members, NestsWithin n m.2) :
    NestsWithin (n + 1) (.obj members)

namespace Script

/-! ## Tables without holes -/

namespace Table
variable {t : Table} {m n : Nat}

/-- No index is missing below another one. -/
def Gapless (t : Table) : Prop := ∃ m, t.Indexed m

/-- Texts as keys are no indices. -/
theorem indexed_of_texts (texts : ∀ k ∈ t.keys, ∃ s, k = .text s) : t.Indexed 0 := by
  intro i pos
  refine iff_of_false (fun mem => ?_) (Int.not_le.2 pos)
  obtain ⟨s, same⟩ := texts _ mem
  cases same

/-- A table without holes that has as many entries as its length has nothing but its items. -/
theorem Gapless.sequence (gapless : t.Gapless) (full : t.Full) : t.Sequence t.length := by
  obtain ⟨m, indexed⟩ := gapless
  rw [indexed.length]
  have perm : (indices m).Perm t.keys := by
    refine ((nodup_indices m).subperm indexed.indices_subset).perm_of_length_le ?_
    rw [length_indices, keys, List.length_map, full.2, indexed.length]
  exact ⟨indexed.length ▸ full.1, fun k => perm.symm.mem_iff.trans mem_indices⟩

namespace Sequence

theorem item_mem (sequence : t.Sequence n) {i : Nat} (pos : 0 < i) (le : i ≤ n) :
    (Value.int i, t.get (.int i)) ∈ t.entries := by
  obtain ⟨i, rfl⟩ := Nat.exists_eq_succ_of_ne_zero (Nat.ne_of_gt pos)
  exact t.mem_of_get (get_ne_nil_iff.2 ((sequence.mem_keys _).2 ⟨i, le, rfl⟩))

theorem eq_item (sequence : t.Sequence n) {e : Value × Value} (mem : e ∈ t.entries) :
    ∃ i : Nat, 0 < i ∧ i ≤ n ∧ e = (.int i, t.get (.int i)) := by
  have index : e.1 ∈ indices n :=
    mem_indices.2 ((sequence.mem_keys e.1).1 (List.mem_map_of_mem mem))
  obtain ⟨i, less, same⟩ := eq_item_of_mem mem index
  exact ⟨i + 1, Nat.succ_pos i, less, same⟩

end Sequence
end Table

/-! ## What a value is made of -/

/-- A key that gives a member its name: an index, or a text that is not reserved. -/
inductive Value.Names : Value → Prop
  | index (n : Int) : Names (.int n)
  | text {s : String} (free : s ≠ markerKey) : Names (.text s)

/-- A value of the language that has a JSON form and is no table. -/
inductive Value.Leaf : Value → Prop
  | nil : Leaf .nil
  | bool (b : Bool) : Leaf (.bool b)
  | int (n : Int) : Leaf (.int n)
  | float {x : Double} (finite : x.isFinite = true) : Leaf (.float x)
  | text (s : String) : Leaf (.text s)
  | function (f : FunctionRef) : Leaf (.function f)

/-- A leaf, or the null of the host. -/
def Value.Plain (v : Value) : Prop := v = .null ∨ v.Leaf

theorem word_markerKey : Word markerKey :=
  word_of_head (show markerKey.toList = '$' :: "predicate".toList from rfl) (by decide) rfl

theorem Value.names_iff {k : Value} :
    k.Names ↔ ∃ name, k.memberName? = some name ∧ name ≠ markerKey := by
  constructor
  · rintro (n | free)
    · exact ⟨_, rfl, word_markerKey n⟩
    · exact ⟨_, memberName?_text _, free⟩
  · rintro ⟨name, named, free⟩
    cases k with
    | str bytes =>
      rw [ofUtf8?_eq_some named]
      exact .text free
    | int n => exact .index n
    | _ => cases named

namespace Value

theorem plain_float {x : Double} : (Value.float x).Plain ↔ x.isFinite = true := by
  constructor
  · rintro (null | leaf)
    · cases null
    · cases leaf with
      | float finite => exact finite
  · exact fun finite => .inr (.float finite)

theorem plain_str {bytes : ByteArray} :
    (Value.str bytes).Plain ↔ ∃ s, Text.ofUtf8? bytes = some s := by
  constructor
  · rintro (null | leaf)
    · cases null
    · cases leaf with
      | text s => exact ⟨s, memberName?_text s⟩
  · rintro ⟨s, read⟩
    exact ofUtf8?_eq_some read ▸ .inr (.text s)

theorem table_or_other (v : Value) : (∃ r, v = .table r) ∨ ∀ r, v ≠ .table r := by
  by_cases table : ∃ r, v = .table r
  · exact .inl table
  · exact .inr fun r same => table ⟨r, same⟩

theorem not_plain_table (r : TableRef) : ¬(Value.table r).Plain := by
  rintro (null | leaf)
  · cases null
  · cases leaf

theorem not_plain_thread (r : ThreadRef) : ¬(Value.thread r).Plain := by
  rintro (null | leaf)
  · cases null
  · cases leaf

theorem not_plain_fault (id : Nat) (f : Fault) : ¬(Value.fault id f).Plain := by
  rintro (null | leaf)
  · cases null
  · cases leaf

end Value

namespace Heap
variable {h : Heap} {v x : Value} {depth : Nat}

/-- A value is somewhere in a value. -/
inductive Contains (h : Heap) : Value → Value → Prop
  | here (v : Value) : h.Contains v v
  | entry {r : TableRef} {x : Value} {e : Value × Value} (mem : e ∈ (h.table r).entries)
    (below : h.Contains e.2 x) : h.Contains (.table r) x

/-- Tables that are nested in a value, each of them in the one before. -/
inductive Chain (h : Heap) : Value → List TableRef → Prop
  | last (r : TableRef) : h.Chain (.table r) [r]
  | further {r : TableRef} {rs : List TableRef} {e : Value × Value}
    (mem : e ∈ (h.table r).entries) (rest : h.Chain e.2 rs) : h.Chain (.table r) (r :: rs)

/-- A value has the shape of JSON: tables nest at most so deep, every key is a name, and
everything that is no table is of one kind. -/
structure Shaped (h : Heap) (kind : Value → Prop) (depth : Nat) (v : Value) : Prop where
  nesting : ∀ rs, h.Chain v rs → rs.length ≤ depth
  keys : ∀ r, h.Contains v (.table r) → ∀ e ∈ (h.table r).entries, e.1.Names
  leaves : ∀ x, h.Contains v x → (∀ r, x ≠ .table r) → kind x

/-- The same, level by level. -/
inductive Fits (h : Heap) : Nat → Value → Prop
  | plain {depth : Nat} {v : Value} (plain : v.Plain) : h.Fits depth v
  | table {depth : Nat} {r : TableRef} (keys : ∀ e ∈ (h.table r).entries, e.1.Names)
    (each : ∀ e ∈ (h.table r).entries, h.Fits depth e.2) : h.Fits (depth + 1) (.table r)

theorem fits_of_not_table (other : ∀ r, v ≠ .table r) : h.Fits depth v ↔ v.Plain := by
  constructor
  · intro fits
    cases fits with
    | plain plain => exact plain
    | @table _ r => exact absurd rfl (other r)
  · exact .plain

theorem not_fits_zero (r : TableRef) : ¬h.Fits 0 (.table r) := by
  intro fits
  cases fits with
  | plain plain => exact Value.not_plain_table r plain

theorem fits_table {r : TableRef} : h.Fits (depth + 1) (.table r) ↔
    ∀ e ∈ (h.table r).entries, e.1.Names ∧ h.Fits depth e.2 := by
  constructor
  · intro fits
    cases fits with
    | plain plain => exact absurd plain (Value.not_plain_table r)
    | table keys each => exact fun e mem => ⟨keys e mem, each e mem⟩
  · exact fun each => .table (fun e mem => (each e mem).1) fun e mem => (each e mem).2

namespace Fits

theorem mono (fits : h.Fits depth v) {more : Nat} (le : depth ≤ more) : h.Fits more v := by
  induction fits generalizing more with
  | plain plain => exact .plain plain
  | table keys _ ih =>
    obtain ⟨more, rfl⟩ := Nat.exists_eq_add_of_lt le
    exact .table keys fun e mem => ih e mem (Nat.le_add_right _ _)

/-- What is in a value fits where the value does. -/
theorem of_contains (contains : h.Contains v x) (fits : h.Fits depth v) : h.Fits depth x := by
  induction contains generalizing depth with
  | here => exact fits
  | entry mem _ ih =>
    cases fits with
    | plain plain => exact absurd plain (Value.not_plain_table _)
    | table _ each => exact (ih (each _ mem)).mono (Nat.le_succ _)

/-- A table that fits anywhere is not inside itself. -/
theorem not_contains {r : TableRef} (fits : h.Fits depth (.table r)) {e : Value × Value}
    (mem : e ∈ (h.table r).entries) : ¬h.Contains e.2 (.table r) := by
  intro back
  -- Each turn takes a level away, and there are only so many.
  induction depth with
  | zero =>
    cases fits with
    | plain plain => exact Value.not_plain_table r plain
  | succ depth ih =>
    cases fits with
    | plain plain => exact Value.not_plain_table r plain
    | table _ each => exact ih ((each e mem).of_contains back)

theorem length_le {rs : List TableRef} (chain : h.Chain v rs) (fits : h.Fits depth v) :
    rs.length ≤ depth := by
  induction chain generalizing depth with
  | last r =>
    cases fits with
    | plain plain => exact absurd plain (Value.not_plain_table r)
    | table => exact Nat.succ_le_succ (Nat.zero_le _)
  | further mem _ ih =>
    cases fits with
    | plain plain => exact absurd plain (Value.not_plain_table _)
    | table _ each => exact Nat.succ_le_succ (ih (each _ mem))

theorem shaped (fits : h.Fits depth v) : h.Shaped Value.Plain depth v where
  nesting _ chain := length_le chain fits
  keys r contains := by
    cases fits.of_contains contains with
    | plain plain => exact absurd plain (Value.not_plain_table r)
    | table keys => exact keys
  leaves x contains other := by
    cases fits.of_contains contains with
    | plain plain => exact plain
    | @table _ r => exact absurd rfl (other r)

end Fits

theorem Shaped.entry {kind : Value → Prop} {r : TableRef}
    (shaped : h.Shaped kind (depth + 1) (.table r)) {e : Value × Value}
    (mem : e ∈ (h.table r).entries) : h.Shaped kind depth e.2 where
  nesting rs chain := Nat.le_of_succ_le_succ (shaped.nesting (r :: rs) (.further mem chain))
  keys r' contains := shaped.keys r' (.entry mem contains)
  leaves x contains := shaped.leaves x (.entry mem contains)

theorem fits_iff_shaped : h.Fits depth v ↔ h.Shaped Value.Plain depth v := by
  refine ⟨Fits.shaped, fun shaped => ?_⟩
  induction depth generalizing v with
  | zero =>
    rcases v.table_or_other with ⟨r, rfl⟩ | other
    · exact absurd (shaped.nesting [r] (.last r)) (Nat.not_succ_le_zero 0)
    · exact .plain (shaped.leaves v (.here v) other)
  | succ depth ih =>
    rcases v.table_or_other with ⟨r, rfl⟩ | other
    · exact .table (shaped.keys r (.here _)) fun e mem => ih (shaped.entry mem)
    · exact .plain (shaped.leaves v (.here v) other)

end Heap

/-! ## Acceptance -/

variable {α β : Type} {h : Heap} {g : Registry}

/-- A conversion comes to a result. -/
def Accepts (x : Leaving α) (g : Registry) : Prop := ∃ a g', x g = .ok a g'

namespace Accepts

theorem pure (a : α) (g : Registry) : Accepts (pure a) g := ⟨a, g, rfl⟩

theorem not_refuse (location : Location) (constraint : Constraint) :
    ¬Accepts (refuse (α := α) location constraint) g := by
  rintro ⟨_, _, ok⟩
  cases ok

theorem bind_iff {x : Leaving α} {f : α → Leaving β} :
    Accepts (x >>= f) g ↔ ∃ a g', x g = .ok a g' ∧ Accepts (f a) g' := by
  unfold Accepts
  change (∃ b g', EStateM.bind x f g = .ok b g') ↔ _
  unfold EStateM.bind
  cases x g with
  | ok a g' => simp
  | error e g' => simp

end Accepts

/-- What comes after a conversion is accepted or not, whatever the conversion gave. -/
theorem Accepts.bind_iff_of {x : Leaving α} {f : α → Leaving β} {q : Prop}
    (rest : ∀ a g', x g = .ok a g' → (Accepts (f a) g' ↔ q)) :
    Accepts (x >>= f) g ↔ Accepts x g ∧ q := by
  rw [bind_iff]
  constructor
  · rintro ⟨a, g', ok, more⟩
    exact ⟨⟨a, g', ok⟩, (rest a g' ok).1 more⟩
  · rintro ⟨⟨a, g', ok⟩, holds⟩
    exact ⟨a, g', ok, (rest a g' ok).2 holds⟩

theorem memberName_eq_ok {location : Location} {k : Value} {name : String} {g' : Registry} :
    memberName location k g = .ok name g' ↔ k.memberName? = some name ∧ g' = g := by
  cases k with
  | str bytes =>
    unfold memberName Value.memberName?
    dsimp only
    cases Text.ofUtf8? bytes with
    | none => exact ⟨nofun, fun h => nomatch h.1⟩
    | some key =>
      constructor
      · rintro ⟨⟩
        exact ⟨rfl, rfl⟩
      · rintro ⟨⟨⟩, rfl⟩
        rfl
  | int n =>
    constructor
    · rintro ⟨⟩
      exact ⟨rfl, rfl⟩
    · rintro ⟨⟨⟩, rfl⟩
      rfl
  | _ => exact ⟨nofun, fun h => nomatch h.1⟩

variable {leave : Location → Value → Leaving Json} {p : Value → Prop} {location : Location}

/-- The items of a list are accepted if each of them is. -/
theorem leaveItems_accepts {t : Table} {n more : Nat}
    (decides : ∀ i : Nat, n < i → i ≤ n + more → ∀ place g,
      Accepts (leave place (t.get (.int i))) g ↔ p (t.get (.int i))) :
    Accepts (leaveItems leave location t n more) g ↔
      ∀ i : Nat, n < i → i ≤ n + more → p (t.get (.int i)) := by
  -- Induction on the number of items to come.
  induction more generalizing n g with
  | zero =>
    refine iff_of_true (.pure [] g) fun i after upTo => ?_
    exact absurd (Nat.lt_of_lt_of_le after upTo) (Nat.lt_irrefl n)
  | succ more ih =>
    have later : ∀ g', Accepts (leaveItems leave location t (n + 1) more) g' ↔
        ∀ i : Nat, n + 1 < i → i ≤ n + 1 + more → p (t.get (.int i)) := fun _ =>
      ih fun i after upTo => decides i (by omega) (by omega)
    have listed : ∀ item g', Accepts (do
        let items ← leaveItems leave location t (n + 1) more
        return item :: items) g' ↔
          ∀ i : Nat, n + 1 < i → i ≤ n + 1 + more → p (t.get (.int i)) := by
      intro item g'
      rw [Accepts.bind_iff_of fun items g'' _ => iff_true_intro (.pure (item :: items) g''),
        and_true, later]
    rw [leaveItems, Accepts.bind_iff_of fun item g' _ => listed item g',
      decides (n + 1) (by omega) (by omega)]
    constructor
    · rintro ⟨first, others⟩ i after upTo
      rcases Nat.eq_or_lt_of_le after with rfl | after
      · exact first
      · exact others i after (by omega)
    · intro each
      exact ⟨each _ (by omega) (by omega), fun i after upTo => each i (by omega) (by omega)⟩

/-- The entries of a record are accepted if each has a name and a value that is. -/
theorem leaveEntries_accepts {members : Members} {entries : List (Value × Value)}
    (decides : ∀ e ∈ entries, ∀ place g, Accepts (leave place e.2) g ↔ p e.2) :
    Accepts (leaveEntries leave location members entries) g ↔
      ∀ e ∈ entries, e.1.Names ∧ p e.2 := by
  induction entries generalizing members g with
  | nil => exact iff_of_true (.pure members g) (List.forall_mem_nil _)
  | cons e rest ih =>
    obtain ⟨k, v⟩ := e
    obtain ⟨first, others⟩ := List.forall_mem_cons.1 decides
    have entered : ∀ name g', Accepts (do
        let j ← leave (location.field name) v
        leaveEntries leave location (insertEntry name j members) rest) g' ↔
          p v ∧ ∀ e ∈ rest, e.1.Names ∧ p e.2 := by
      intro name g'
      rw [Accepts.bind_iff_of fun j g'' _ => ih others, first]
    rw [List.forall_mem_cons, Value.names_iff, leaveEntries, Accepts.bind_iff]
    simp only [memberName_eq_ok]
    constructor
    · rintro ⟨name, _, ⟨named, rfl⟩, more⟩
      by_cases reserved : name = markerKey
      · rw [if_pos reserved, Accepts.bind_iff] at more
        obtain ⟨_, _, refused, _⟩ := more
        cases refused
      · rw [if_neg reserved, entered] at more
        exact ⟨⟨⟨name, named, reserved⟩, more.1⟩, more.2⟩
    · rintro ⟨⟨⟨name, named, free⟩, here⟩, there⟩
      refine ⟨name, g, ⟨named, rfl⟩, ?_⟩
      rw [if_neg free, entered]
      exact ⟨here, there⟩

/-- At every depth a value that is no table is accepted if it has a form of its own. -/
theorem leaveWithin_accepts_plain {depth : Nat} {v : Value} (other : ∀ r, v ≠ .table r) :
    Accepts (leaveWithin h depth location v) g ↔ v.Plain := by
  cases v with
  | nil =>
    rw [leaveWithin]
    exact iff_of_true (.pure _ g) (.inr .nil)
  | null =>
    rw [leaveWithin]
    exact iff_of_true (.pure _ g) (.inl rfl)
  | bool b =>
    rw [leaveWithin]
    exact iff_of_true (.pure _ g) (.inr (.bool b))
  | int n =>
    rw [leaveWithin]
    exact iff_of_true (.pure _ g) (.inr (.int n))
  | float x =>
    rw [leaveWithin, Value.plain_float]
    split
    · next finite => exact iff_of_true (.pure _ g) finite
    · next infinite => exact iff_of_false (Accepts.not_refuse _ _) infinite
  | str bytes =>
    rw [leaveWithin, Value.plain_str]
    split
    · next s read => exact iff_of_true (.pure _ g) ⟨s, read⟩
    · next unread =>
      refine iff_of_false (Accepts.not_refuse _ _) ?_
      rintro ⟨s, read⟩
      cases unread.symm.trans read
  | function f =>
    rw [leaveWithin]
    exact iff_of_true ⟨_, _, rfl⟩ (.inr (.function f))
  | table r => exact absurd rfl (other r)
  | thread r =>
    rw [leaveWithin]
    · exact iff_of_false (Accepts.not_refuse _ _) (Value.not_plain_thread r)
    all_goals simp
  | fault id f =>
    rw [leaveWithin]
    · exact iff_of_false (Accepts.not_refuse _ _) (Value.not_plain_fault id f)
    all_goals simp

/-- Where no table has a hole, a value is accepted just if it fits. -/
theorem leaveWithin_accepts {depth : Nat} {v : Value}
    (gapless : ∀ r, h.Contains v (.table r) → (h.table r).Gapless) :
    Accepts (leaveWithin h depth location v) g ↔ h.Fits depth v := by
  -- Induction on the depth: what a table holds is accepted one level further down.
  induction depth generalizing v location g with
  | zero =>
    rcases v.table_or_other with ⟨r, rfl⟩ | other
    · exact iff_of_false (Accepts.not_refuse _ _) (h.not_fits_zero r)
    · rw [leaveWithin_accepts_plain other, Heap.fits_of_not_table other]
  | succ depth ih =>
    rcases v.table_or_other with ⟨r, rfl⟩ | other
    · have decides : ∀ e ∈ (h.table r).entries, ∀ place g,
          Accepts (leaveWithin h depth place e.2) g ↔ h.Fits depth e.2 := fun e mem _ _ =>
        ih fun r' below => gapless r' (.entry mem below)
      rw [leaveWithin, Heap.fits_table]
      split
      · next full =>
        have sequence := (gapless r (.here _)).sequence full
        have items : ∀ i : Nat, 0 < i → i ≤ 0 + (h.table r).length → ∀ place g,
            Accepts (leaveWithin h depth place ((h.table r).get (.int i))) g ↔
              h.Fits depth ((h.table r).get (.int i)) := fun i pos upTo =>
          decides _ (sequence.item_mem pos (Nat.le_trans upTo (Nat.le_of_eq (Nat.zero_add _))))
        rw [Accepts.bind_iff_of fun items g' _ => iff_true_intro (.pure (Json.arr items) g'),
          and_true, leaveItems_accepts items, Nat.zero_add]
        constructor
        · intro each e mem
          obtain ⟨i, pos, upTo, rfl⟩ := sequence.eq_item mem
          exact ⟨.index i, each i pos upTo⟩
        · exact fun each i pos upTo => (each _ (sequence.item_mem pos upTo)).2
      · rw [Accepts.bind_iff_of fun members g' _ => iff_true_intro (.pure (Json.obj members) g'),
          and_true, leaveEntries_accepts decides]
    · rw [leaveWithin_accepts_plain other, Heap.fits_of_not_table other]

/-- What a value that fits has become nests no deeper than the value. -/
theorem Becomes.nestsWithin {depth : Nat} {v : Value} {j : Json} (becomes : Becomes h g v j)
    (fits : h.Fits depth v) : j.NestsWithin depth := by
  induction becomes generalizing depth with
  | nil => exact .null depth
  | null => exact .null depth
  | bool b => exact .bool depth b
  | int n => exact .int depth n
  | float x => exact .float depth x
  | text s => exact .str depth s
  | function => exact .marker depth _
  | @list r items full sized each ih =>
    cases fits with
    | plain plain => exact absurd plain (Value.not_plain_table r)
    | table _ entries =>
      refine .arr fun j mem => ?_
      obtain ⟨i, inside, rfl⟩ := List.getElem_of_mem mem
      refine ih i inside ?_
      by_cases missing : (h.table r).get (.int (i + 1 : Nat)) = .nil
      · exact missing ▸ .plain (.inr .nil)
      · exact entries _ ((h.table r).mem_of_get missing)
  | @record r members source other ascending unreserved complete there named each ih =>
    cases fits with
    | plain plain => exact absurd plain (Value.not_plain_table r)
    | table _ each => exact .obj fun m mem => ih m mem (each _ (there m mem))

/-- A conversion makes an end on every heap, also where tables refer back to themselves. If no
table in the value has a hole, it gives a result just where the value has the shape of JSON. Then
no table in the value is inside itself, and the result nests no deeper than the limit. -/
theorem toJson_ok_iff_shaped (location : Location) (v : Value)
    (gapless : ∀ r, h.Contains v (.table r) → (h.table r).Gapless) :
    (h.Shaped Value.Plain nestingLimit v ∧
      (∀ r, h.Contains v (.table r) → ∀ e ∈ (h.table r).entries, ¬h.Contains e.2 (.table r)) ∧
      ∃ j g', toJson h location v g = .ok j g' ∧ j.NestsWithin nestingLimit) ∨
    (¬h.Shaped Value.Plain nestingLimit v ∧ ∃ e g', toJson h location v g = .error e g') := by
  have fits_iff : Accepts (leaveWithin h nestingLimit location v) g ↔ h.Fits nestingLimit v :=
    leaveWithin_accepts gapless
  rw [← Heap.fits_iff_shaped, ← fits_iff]
  cases result : toJson h location v g with
  | ok j g' =>
    have accepted : Accepts (leaveWithin h nestingLimit location v) g := ⟨j, g', result⟩
    have fits := fits_iff.1 accepted
    have becomes := toJson_becomes result
    exact .inl ⟨accepted, fun r contains e mem => (fits.of_contains contains).not_contains mem,
      j, g', rfl, becomes.nestsWithin fits⟩
  | error e g' =>
    refine .inr ⟨fun ⟨j, g'', ok⟩ => ?_, e, g', rfl⟩
    cases result.symm.trans ok

/-- A table that is an entry of its own. -/
def mirror : Heap := #[Table.ofFields [("me", .table ⟨0⟩)]]

theorem mirror_gapless (r : TableRef) : (mirror.table r).Gapless := by
  refine ⟨0, Table.indexed_of_texts fun k mem => ?_⟩
  obtain ⟨_ | n⟩ := r
  · exact ⟨"me", List.mem_singleton.1 mem⟩
  · cases mem

theorem toJson_ok_iff_shaped_mirror :
    (∀ r, mirror.Contains (.table ⟨0⟩) (.table r) → (mirror.table r).Gapless) ∧
    ¬mirror.Shaped Value.Plain nestingLimit (.table ⟨0⟩) ∧
    ∃ e g', toJson mirror ⟨"category", []⟩ (.table ⟨0⟩) {} = .error e g' := by
  have gapless : ∀ r, mirror.Contains (.table ⟨0⟩) (.table r) → (mirror.table r).Gapless :=
    fun r _ => mirror_gapless r
  rcases toJson_ok_iff_shaped (g := {}) ⟨"category", []⟩ (.table ⟨0⟩) gapless with
    ⟨_, apart, _⟩ | refused
  · have entry : (.text "me", .table ⟨0⟩) ∈ (mirror.table ⟨0⟩).entries := List.mem_singleton.2 rfl
    exact absurd (.here _) (apart ⟨0⟩ (.here _) _ entry)
  · exact ⟨gapless, refused⟩

/-- A value of the host is accepted, too, that is none of the language. -/
theorem host_null_accepted :
    toJson #[] ⟨"x", []⟩ .null {} = .ok .null {} ∧
    ¬Heap.Shaped #[] Value.Leaf nestingLimit .null := by
  refine ⟨rfl, fun shaped => ?_⟩
  cases shaped.leaves .null (.here _) nofun

end Script
end GuildPlan
