import GuildPlan.Proofs.Nesting
import Mathlib.Data.List.Forall2

/-
  Values of the host that go into a script and come back. A list goes in as a table of items, an
  object as a table with a text for each key, and the marker of a known handle as its function; no
  text ever counts as an index. So what comes back is what went in, but for two things that a
  table and a function do not tell: an empty list is an empty object then, and a function is
  entered into the registry once more, under a handle of its own.
-/
namespace GuildPlan
namespace Script

variable {h h' : Heap} {g g' : Registry}

/-! ## Values of the host -/

/-- A value that the host may give to scripts: no null is in it, its integers have 64 bits with a
sign, its floats are finite, the members of its objects are in order, and the reserved key is in
no object but the markers of known handles. -/
inductive Given (g : Registry) : Json → Prop
  | bool (b : Bool) : Given g (.bool b)
  | int {n : Int} (fits : Value.fitsInteger n = true) : Given g (.int n)
  | float {x : Double} (finite : x.isFinite = true) : Given g (.float x)
  | str (s : String) : Given g (.str s)
  | marker {j : Json} {handle : Handle} {f : FunctionRef} (marks : j.marker? = some handle)
    (known : g.get? handle = some f) : Given g j
  | arr {items : List Json} (each : ∀ v ∈ items, Given g v) : Given g (.arr items)
  | obj {members : Members} (ascending : Ascending members) (unreserved : markerKey ∉ members.keys)
    (each : ∀ m ∈ members, Given g m.2) : Given g (.obj members)

/-- How a value comes back, when the registry has grown: an empty list as an empty object, a
marker as a marker of the same function, and anything else as it was. -/
inductive Returned (g g' : Registry) : Json → Json → Prop
  | bool (b : Bool) : Returned g g' (.bool b) (.bool b)
  | int (n : Int) : Returned g g' (.int n) (.int n)
  | float (x : Double) : Returned g g' (.float x) (.float x)
  | str (s : String) : Returned g g' (.str s) (.str s)
  | marker {f : FunctionRef} {before after : Handle} (known : g.get? before = some f)
    (kept : g'.get? after = some f) : Returned g g' before.marker after.marker
  | empty : Returned g g' (.arr []) (.obj [])
  | arr {items items' : List Json} (some : items ≠ []) (sized : items'.length = items.length)
    (each : ∀ n (inside : n < items.length) (inside' : n < items'.length),
      Returned g g' items[n] items'[n]) : Returned g g' (.arr items) (.arr items')
  | obj {members members' : Members} (unreserved : markerKey ∉ members.keys)
    (keys : members'.keys = members.keys)
    (each : ∀ m ∈ members, ∀ m' ∈ members', m'.1 = m.1 → Returned g g' m.2 m'.2) :
    Returned g g' (.obj members) (.obj members')

/-! ## Tables made by the host -/

namespace Heap

/-- The tables of a heap are on another one, too, as they are. -/
def Grows (h h' : Heap) : Prop :=
  ∀ r : TableRef, r.index < h.size → r.index < h'.size ∧ h'.table r = h.table r

theorem Grows.refl (h : Heap) : h.Grows h := fun _ inside => ⟨inside, rfl⟩

theorem Grows.trans {h'' : Heap} (first : h.Grows h') (second : h'.Grows h'') : h.Grows h'' := by
  intro r inside
  obtain ⟨inside', same⟩ := first r inside
  obtain ⟨inside'', same'⟩ := second r inside'
  exact ⟨inside'', same'.trans same⟩

theorem grows_push (h : Heap) (t : Table) : h.Grows (h.push t) := by
  intro r inside
  refine ⟨?_, ?_⟩
  · rw [Array.size_push]
    exact Nat.lt_succ_of_lt inside
  · show (h.push t).getD r.index ∅ = h.getD r.index ∅
    rw [Array.getD_eq_getD_getElem?, Array.getD_eq_getD_getElem?, Array.getElem?_push_lt inside,
      Array.getElem?_eq_getElem inside]

theorem table_push (h : Heap) (t : Table) : table (h.push t) ⟨h.size⟩ = t := by
  show (h.push t).getD h.size ∅ = t
  rw [Array.getD_eq_getD_getElem?, Array.getElem?_push_size]
  rfl

/-- An update changes one table, and no other. -/
theorem table_update (h : Heap) {r : TableRef} (inside : r.index < h.size) (f : Table → Table)
    (r' : TableRef) :
    (h.update r f).table r' = if r' = r then f (h.table r) else h.table r' := by
  unfold Heap.table Heap.update
  rw [Array.getD_eq_getD_getElem?, Array.getElem?_modify, Array.getD_eq_getD_getElem?,
    Array.getD_eq_getD_getElem?]
  by_cases same : r' = r
  · subst same
    rw [if_pos rfl, if_pos rfl, Array.getElem?_eq_getElem inside]
    rfl
  · have apart : r.index ≠ r'.index := fun equal => same (by cases r; cases r'; cases equal; rfl)
    rw [if_neg apart, if_neg same]

theorem table_of_outside (h : Heap) {r : TableRef} (outside : ¬ r.index < h.size) :
    h.table r = ∅ := by
  unfold Heap.table
  rw [Array.getD_eq_getD_getElem?, Array.getElem?_eq_none (Nat.not_lt.1 outside)]
  rfl

/-- A reference behind the end of a heap leads to no table that an update could change. -/
theorem update_of_outside (h : Heap) {r : TableRef} (outside : ¬ r.index < h.size)
    (f : Table → Table) : h.update r f = h := by
  refine Array.ext Array.size_modify fun i inside inside' => ?_
  have apart : r.index ≠ i := fun same => outside (same ▸ inside')
  exact (Array.getElem_modify inside).trans (if_neg apart)

end Heap

namespace Table

theorem lookup_putEntry (key value k : Value) (entries : List (Value × Value)) :
    (putEntry key value entries).lookup k = if k = key then some value else entries.lookup k := by
  induction entries with
  | nil => exact lookup_cons_eq key k value []
  | cons e rest ih =>
    obtain ⟨k', v⟩ := e
    unfold putEntry
    split
    · next same =>
      subst same
      rw [lookup_cons_eq, lookup_cons_eq]
      split <;> rfl
    · next apart =>
      rw [lookup_cons_eq, lookup_cons_eq, ih]
      by_cases same : k = key
      · rw [same, if_neg (Ne.symm apart), if_pos rfl, if_pos rfl]
      · rw [if_neg same, if_neg same]

/-- What is put under a key is found there, and all else where it was. -/
theorem get_set (t : Table) (key value k : Value) :
    (t.set key value).get k = if k = key then value else t.get k := by
  unfold set get
  split
  · next missing =>
    have taken := lookup_filter (fun k => decide (k ≠ key)) t.entries k
    show ((t.entries.filter fun e => decide (e.1 ≠ key)).lookup k).getD .nil = _
    rw [taken, missing]
    by_cases same : k = key
    · simp [same]
    · simp [same]
  · show ((putEntry key value t.entries).lookup k).getD .nil = _
    rw [lookup_putEntry]
    split <;> rfl


namespace Rearranged
variable {t t' t'' : Table}

theorem refl (t : Table) : t.Rearranged t := ⟨.refl _, rfl⟩

theorem symm (same : t.Rearranged t') : t'.Rearranged t :=
  ⟨same.entries.symm, same.metatable.symm⟩

theorem trans (first : t.Rearranged t') (second : t'.Rearranged t'') : t.Rearranged t'' :=
  ⟨first.entries.trans second.entries, second.metatable.trans first.metatable⟩

theorem get (same : t.Rearranged t') (key : Value) : t'.get key = t.get key := by
  have found : t'.entries.lookup key = t.entries.lookup key := Option.ext fun value => by
    rw [lookup_eq_some_iff_mem t'.distinct, lookup_eq_some_iff_mem t.distinct,
      same.entries.mem_iff]
  unfold Table.get
  rw [found]

theorem mem_keys_iff (same : t.Rearranged t') (key : Value) : key ∈ t'.keys ↔ key ∈ t.keys :=
  (same.entries.map Prod.fst).mem_iff.symm

end Rearranged

theorem keys_indexed (n : Nat) (values : List Value) :
    (indexed (n + 1) values).map Prod.fst =
      (List.range' n values.length).map fun i => .int (i + 1 : Nat) := by
  induction values generalizing n with
  | nil => rfl
  | cons v vs ih =>
    rw [indexed, List.map_cons, ih, List.length_cons, List.range'_succ, List.map_cons]

theorem mem_indexed {n i : Nat} {values : List Value} (inside : i < values.length) :
    (Value.int (n + i : Nat), values[i]) ∈ indexed n values := by
  induction values generalizing n i with
  | nil => exact absurd inside (Nat.not_lt_zero i)
  | cons v vs ih =>
    cases i with
    | zero => exact List.mem_cons_self
    | succ i =>
      rw [Nat.add_left_comm, Nat.add_comm]
      exact List.mem_cons_of_mem _ (ih (Nat.lt_of_succ_lt_succ inside))

/-- Items of which none is nil are all entries. -/
theorem entries_ofItems {values : List Value} (there : ∀ v ∈ values, v ≠ .nil) :
    (ofItems values).entries = indexed 1 values := by
  have filled : ∀ n, ∀ e ∈ indexed n values, e.2 ≠ .nil := by
    induction values with
    | nil => exact fun n => List.forall_mem_nil _
    | cons v vs ih =>
      obtain ⟨first, others⟩ := List.forall_mem_cons.1 there
      exact fun n => List.forall_mem_cons.2 ⟨first, ih others (n + 1)⟩
  exact List.filter_eq_self.2 fun e mem => decide_eq_true (filled 1 e mem)

theorem keys_ofItems {values : List Value} (there : ∀ v ∈ values, v ≠ .nil) :
    (ofItems values).keys = indices values.length := by
  unfold keys indices
  rw [entries_ofItems there, keys_indexed, List.range_eq_range']

theorem get_ofItems {values : List Value} (there : ∀ v ∈ values, v ≠ .nil) {i : Nat}
    (inside : i < values.length) : (ofItems values).get (.int (i + 1 : Nat)) = values[i] := by
  refine (ofItems values).get_of_mem ?_
  rw [entries_ofItems there, Nat.add_comm]
  exact mem_indexed inside

theorem putEntry_of_fresh {key value : Value} {entries : List (Value × Value)}
    (fresh : key ∉ entries.map Prod.fst) :
    putEntry key value entries = entries ++ [(key, value)] := by
  induction entries with
  | nil => rfl
  | cons e rest ih =>
    obtain ⟨k, v⟩ := e
    rw [List.map_cons, List.mem_cons, not_or] at fresh
    rw [putEntry, if_neg (Ne.symm fresh.1), ih fresh.2, List.cons_append]

theorem text_injective : Function.Injective Value.text := by
  intro s s' same
  have named := congrArg Value.memberName? same
  rw [memberName?_text, memberName?_text] at named
  exact Option.some.inj named

/-- Fields of which no two have one name, and none is nil, are all entries. -/
theorem entries_ofFields {fields : List (String × Value)} (distinct : (fields.map Prod.fst).Nodup)
    (there : ∀ f ∈ fields, f.2 ≠ .nil) :
    (ofFields fields).entries = fields.map fun f => (.text f.1, f.2) := by
  have onward : ∀ t : Table, (∀ f ∈ fields, Value.text f.1 ∉ t.keys) →
      (fields.foldl (fun t f => t.set (.text f.1) f.2) t).entries =
        t.entries ++ fields.map fun f => (.text f.1, f.2) := by
    induction fields with
    | nil => exact fun t _ => (List.append_nil t.entries).symm
    | cons f fields ih =>
      intro t fresh
      obtain ⟨new, others⟩ := List.nodup_cons.1 distinct
      obtain ⟨first, rest⟩ := List.forall_mem_cons.1 there
      obtain ⟨free, frees⟩ := List.forall_mem_cons.1 fresh
      have put : (t.set (.text f.1) f.2).entries = t.entries ++ [(.text f.1, f.2)] := by
        unfold set
        rw [dif_neg first]
        exact putEntry_of_fresh free
      rw [List.foldl_cons, ih others rest _ fun f' mem => ?_, put, List.append_assoc]
      · rfl
      · unfold keys
        rw [put, List.map_append, List.mem_append, not_or]
        refine ⟨frees f' mem, fun same => new ?_⟩
        rw [text_injective (List.mem_singleton.1 same).symm]
        exact List.mem_map_of_mem mem
  exact onward ∅ fun _ _ => List.not_mem_nil

end Table

/-! ## Going in -/

/-- What a value of the host is for scripts. -/
inductive Entered (h : Heap) (g : Registry) : Json → Value → Prop
  | bool (b : Bool) : Entered h g (.bool b) (.bool b)
  | int (n : Int) : Entered h g (.int n) (.int n)
  | float {x : Double} (finite : x.isFinite = true) : Entered h g (.float x) (.float x)
  | str (s : String) : Entered h g (.str s) (.text s)
  | marker {j : Json} {handle : Handle} {f : FunctionRef} (marks : j.marker? = some handle)
    (known : g.get? handle = some f) : Entered h g j (.function f)
  | arr {items : List Json} {r : TableRef} (inside : r.index < h.size)
    (keys : (h.table r).keys = Table.indices items.length)
    (each : ∀ n (inside : n < items.length),
      Entered h g items[n] ((h.table r).get (.int (n + 1 : Nat)))) :
    Entered h g (.arr items) (.table r)
  | obj {members : Members} {r : TableRef} (inside : r.index < h.size)
    (ascending : Ascending members) (unreserved : markerKey ∉ members.keys)
    (keys : (h.table r).keys = members.keys.map Value.text)
    (each : ∀ m ∈ members, Entered h g m.2 ((h.table r).get (.text m.1))) :
    Entered h g (.obj members) (.table r)

namespace Entered
variable {j : Json} {v : Value}

theorem ne_nil (entered : Entered h g j v) : v ≠ .nil := by
  cases entered <;> nofun

theorem mono (entered : Entered h g j v) (grows : h.Grows h') : Entered h' g j v := by
  induction entered with
  | bool b => exact .bool b
  | int n => exact .int n
  | float finite => exact .float finite
  | str s => exact .str s
  | marker marks known => exact .marker marks known
  | @arr items r inside keys _ ih =>
    obtain ⟨inside', same⟩ := grows r inside
    rw [← same] at keys ih
    exact .arr inside' keys ih
  | @obj members r inside ascending unreserved keys _ ih =>
    obtain ⟨inside', same⟩ := grows r inside
    rw [← same] at keys ih
    exact .obj inside' ascending unreserved keys ih

/-- Values that went in make a list, as items of a new table. -/
theorem push_items {heap : Heap} {items : List Json} {values : List Value}
    (entered : List.Forall₂ (Entered heap g) items values) :
    Entered (heap.push (Table.ofItems values)) g (.arr items) (.table ⟨heap.size⟩) := by
  have there : ∀ v ∈ values, v ≠ .nil := by
    intro v mem
    obtain ⟨n, inside, rfl⟩ := List.getElem_of_mem mem
    exact (entered.get (entered.length_eq ▸ inside) inside).ne_nil
  refine .arr ?_ ?_ fun n inside => ?_
  · rw [Array.size_push]
    exact Nat.lt_succ_self _
  · rw [Heap.table_push, Table.keys_ofItems there, entered.length_eq]
  · have inside' : n < values.length := entered.length_eq ▸ inside
    rw [Heap.table_push, Table.get_ofItems there inside']
    exact (entered.get inside inside').mono (heap.grows_push _)

/-- Values that went in make an object, as fields of a new table. -/
theorem push_fields {heap : Heap} {members : Members} {fields : List (String × Value)}
    (ascending : Ascending members) (unreserved : markerKey ∉ members.keys)
    (entered : List.Forall₂ (fun m f => m.1 = f.1 ∧ Entered heap g m.2 f.2) members fields) :
    Entered (heap.push (Table.ofFields fields)) g (.obj members) (.table ⟨heap.size⟩) := by
  have there : ∀ f ∈ fields, f.2 ≠ .nil := by
    intro f mem
    obtain ⟨n, inside, rfl⟩ := List.getElem_of_mem mem
    exact (entered.get (entered.length_eq ▸ inside) inside).2.ne_nil
  have names : fields.map Prod.fst = members.keys := by
    have same := entered.imp fun _ _ pair => pair.1.symm
    have mapped := List.forall₂_map_left_iff.2 (List.forall₂_map_right_iff.2 same.flip)
    exact List.forall₂_eq_eq_eq ▸ mapped
  have distinct : (fields.map Prod.fst).Nodup := names ▸ ascending.nodup_keys
  refine .obj ?_ ascending unreserved ?_ fun m mem => ?_
  · rw [Array.size_push]
    exact Nat.lt_succ_self _
  · rw [Heap.table_push]
    unfold Table.keys
    rw [Table.entries_ofFields distinct there, ← names, List.map_map, List.map_map]
    rfl
  · obtain ⟨n, inside, rfl⟩ := List.getElem_of_mem mem
    have inside' : n < fields.length := entered.length_eq ▸ inside
    obtain ⟨named, here⟩ : members[n].1 = fields[n].1 ∧ Entered heap g members[n].2 fields[n].2 :=
      entered.get inside inside'
    have field : (.text members[n].1, fields[n].2) ∈ (Table.ofFields fields).entries := by
      rw [Table.entries_ofFields distinct there]
      exact List.mem_map.2 ⟨fields[n], List.getElem_mem _, by rw [named]⟩
    rw [Heap.table_push, Table.get_of_mem _ field]
    exact here.mono (heap.grows_push _)

end Entered

/-- A value goes in as what it should, next to all that is on the heap. -/
def Enters (g : Registry) (j : Json) : Prop :=
  ∀ h, h.Grows (ofJson g j h).2 ∧ Entered (ofJson g j h).2 g j (ofJson g j h).1

theorem ofItems_entered {items : List Json} (each : ∀ v ∈ items, Enters g v) (h : Heap) :
    h.Grows (ofItems g items h).2 ∧
      List.Forall₂ (Entered (ofItems g items h).2 g) items (ofItems g items h).1 := by
  induction items generalizing h with
  | nil => exact ⟨.refl h, .nil⟩
  | cons v vs ih =>
    obtain ⟨first, others⟩ := List.forall_mem_cons.1 each
    obtain ⟨grows, entered⟩ := first h
    obtain ⟨more, rest⟩ := ih others (ofJson g v h).2
    exact ⟨grows.trans more, .cons (entered.mono more) rest⟩

theorem ofMembers_entered {members : Members} (each : ∀ m ∈ members, Enters g m.2) (h : Heap) :
    h.Grows (ofMembers g members h).2 ∧
      List.Forall₂ (fun m f => m.1 = f.1 ∧ Entered (ofMembers g members h).2 g m.2 f.2) members
        (ofMembers g members h).1 := by
  induction members generalizing h with
  | nil => exact ⟨.refl h, .nil⟩
  | cons m ms ih =>
    obtain ⟨first, others⟩ := List.forall_mem_cons.1 each
    obtain ⟨grows, entered⟩ := first h
    obtain ⟨more, rest⟩ := ih others (ofJson g m.2 h).2
    exact ⟨grows.trans more, .cons ⟨rfl, entered.mono more⟩ rest⟩

theorem ofJson_arr (g : Registry) (items : List Json) (h : Heap) :
    ofJson g (.arr items) h =
      (.table ⟨(ofItems g items h).2.size⟩,
        (ofItems g items h).2.push (Table.ofItems (ofItems g items h).1)) := by
  unfold ofJson
  rfl

theorem ofJson_of_function {members : Members} {f : FunctionRef}
    (stands : (Json.marker? (.obj members)).bind g.get? = some f) (h : Heap) :
    ofJson g (.obj members) h = (.function f, h) := by
  unfold ofJson
  rw [stands]
  rfl

theorem ofJson_obj {members : Members} (unreserved : markerKey ∉ members.keys) (g : Registry)
    (h : Heap) : ofJson g (.obj members) h =
      (.table ⟨(ofMembers g members h).2.size⟩,
        (ofMembers g members h).2.push (Table.ofFields (ofMembers g members h).1)) := by
  have plain : Json.marker? (.obj members) = none := by
    refine Option.eq_none_iff_forall_ne_some.2 fun handle marks => ?_
    obtain ⟨⟨⟩, _⟩ := Json.marker?_eq_some.1 marks
    exact unreserved List.mem_cons_self
  unfold ofJson
  rw [plain, Option.bind_none]
  rfl

theorem ofJson_entered {j : Json} (given : Given g j) : Enters g j := by
  induction given with
  | bool b => exact fun h => ⟨.refl h, .bool b⟩
  | @int n fits =>
    intro h
    refine ⟨.refl h, ?_⟩
    have small : n < Nat.pow 2 63 := of_decide_eq_true (Bool.and_eq_true_iff.1 fits).2
    have same : (ofJson g (.int n) h).1 = .int n := if_pos small
    rw [same]
    exact .int n
  | float finite => exact fun h => ⟨.refl h, .float finite⟩
  | str s => exact fun h => ⟨.refl h, .str s⟩
  | marker marks known =>
    intro h
    obtain ⟨members, rfl⟩ : ∃ members, _ = Json.obj members :=
      ⟨_, (Json.marker?_eq_some.1 marks).1⟩
    rw [ofJson_of_function (by rw [marks, Option.bind_some, known])]
    exact ⟨.refl h, .marker marks known⟩
  | arr _ ih =>
    intro h
    obtain ⟨grows, entered⟩ := ofItems_entered ih h
    rw [ofJson_arr]
    exact ⟨grows.trans (Heap.grows_push _ _), .push_items entered⟩
  | obj ascending unreserved _ ih =>
    intro h
    obtain ⟨grows, entered⟩ := ofMembers_entered ih h
    rw [ofJson_obj unreserved]
    exact ⟨grows.trans (Heap.grows_push _ _), .push_fields ascending unreserved entered⟩

/-! ## Coming back -/

namespace Table
variable {t : Table}

theorem indexed_of_indices {n : Nat} (keys : t.keys = indices n) : t.Indexed n :=
  indexed_of_mem_keys fun _ => by rw [keys]

theorem indexed_of_names {names : List String} (keys : t.keys = names.map Value.text) :
    t.Indexed 0 :=
  indexed_of_texts fun k mem => by
    obtain ⟨s, _, rfl⟩ := List.mem_map.1 (keys ▸ mem)
    exact ⟨s, rfl⟩

theorem eq_of_indices {n : Nat} (keys : t.keys = indices n) {e : Value × Value}
    (mem : e ∈ t.entries) : ∃ i < n, e = (.int (i + 1 : Nat), t.get (.int (i + 1 : Nat))) :=
  eq_item_of_mem mem (keys ▸ List.mem_map_of_mem mem)

theorem eq_of_names {members : Members} (keys : t.keys = members.keys.map Value.text)
    {e : Value × Value} (mem : e ∈ t.entries) :
    ∃ m ∈ members, e = (.text m.1, t.get (.text m.1)) := by
  obtain ⟨k, v⟩ := e
  have named : k ∈ members.keys.map Value.text := keys ▸ List.mem_map_of_mem mem
  obtain ⟨_, known, rfl⟩ := List.mem_map.1 named
  obtain ⟨m, there, rfl⟩ := List.mem_map.1 known
  exact ⟨m, there, Prod.ext rfl (t.get_of_mem mem).symm⟩

end Table

theorem Becomes.of_text {s : String} {j : Json} (becomes : Becomes h g (.text s) j) :
    j = .str s := by
  generalize same : Value.text s = v at becomes
  cases becomes with
  | text s' => rw [Table.text_injective same]
  | _ => cases same

/-- Members in order with the same keys have them in one order. -/
theorem keys_eq_of_ascending {members members' : Members} (ascending : Ascending members)
    (ascending' : Ascending members')
    (same : ∀ key, key ∈ members.keys ↔ key ∈ members'.keys) : members.keys = members'.keys := by
  have perm : members.keys.Perm members'.keys :=
    (List.perm_ext_iff_of_nodup ascending.nodup_keys ascending'.nodup_keys).2 @same
  have order : members.keys.Pairwise (· < ·) := List.pairwise_map.2 ascending
  have order' : members'.keys.Pairwise (· < ·) := List.pairwise_map.2 ascending'
  exact perm.eq_of_pairwise (fun a b _ _ less greater => absurd greater (String.lt_asymm less))
    order order'

namespace Entered
variable {j j' : Json} {v : Value} {depth : Nat}

/-- What the host makes has no holes. -/
theorem gapless (entered : Entered h g j v) {r : TableRef} (contains : h.Contains v (.table r)) :
    (h.table r).Gapless := by
  induction entered with
  | arr _ keys _ ih =>
    cases contains with
    | here => exact ⟨_, Table.indexed_of_indices keys⟩
    | entry mem below =>
      obtain ⟨i, less, rfl⟩ := Table.eq_of_indices keys mem
      exact ih i less below
  | obj _ _ _ keys _ ih =>
    cases contains with
    | here => exact ⟨_, Table.indexed_of_names keys⟩
    | entry mem below =>
      obtain ⟨m, there, rfl⟩ := Table.eq_of_names keys mem
      exact ih m there below
  | _ => cases contains

/-- What the host makes is as deep as it was. -/
theorem fits (entered : Entered h g j v) (nests : j.NestsWithin depth) : h.Fits depth v := by
  induction entered generalizing depth with
  | bool b => exact .plain (.inr (.bool b))
  | int n => exact .plain (.inr (.int n))
  | float finite => exact .plain (.inr (.float finite))
  | str s => exact .plain (.inr (.text s))
  | marker => exact .plain (.inr (.function _))
  | arr _ keys _ ih =>
    cases nests with
    | arr each =>
      refine Heap.fits_table.2 fun e mem => ?_
      obtain ⟨i, less, rfl⟩ := Table.eq_of_indices keys mem
      exact ⟨.index _, ih i less (each _ (List.getElem_mem less))⟩
  | obj _ _ unreserved keys _ ih =>
    cases nests with
    | marker => exact absurd List.mem_cons_self unreserved
    | obj each =>
      refine Heap.fits_table.2 fun e mem => ?_
      obtain ⟨m, there, rfl⟩ := Table.eq_of_names keys mem
      refine ⟨.text fun reserved => unreserved ?_, ih m there (each m there)⟩
      exact reserved ▸ List.mem_map_of_mem there

/-- A table of items comes back as a list of what they come back as. A table without any is
taken for an object. -/
theorem returned_arr {items : List Json} {r : TableRef}
    (keys : (h.table r).keys = Table.indices items.length)
    (each : ∀ n (inside : n < items.length) {j' : Json},
      Becomes h g' ((h.table r).get (.int (n + 1 : Nat))) j' → Returned g g' items[n] j')
    (becomes : Becomes h g' (.table r) j') : Returned g g' (.arr items) j' := by
  have indexed := Table.indexed_of_indices keys
  cases becomes with
  | @list _ items' full sized become =>
    rw [indexed.length] at sized
    refine .arr ?_ sized fun n inside inside' => each n inside (become n inside')
    rintro rfl
    have none : (h.table r).length = 0 := indexed.length
    exact absurd (none ▸ full.1) (Nat.lt_irrefl 0)
  | @record _ members source other _ _ _ there =>
    have none : items = [] := by
      by_contra some
      refine other ⟨?_, ?_⟩
      · rw [indexed.length]
        exact List.length_pos_of_ne_nil some
      · rw [indexed.length, ← Table.length_indices items.length, ← keys]
        exact (List.length_map _).symm
    subst none
    have empty : (h.table r).entries = [] := List.map_eq_nil_iff.1 keys
    have absent : members = [] := by
      refine List.eq_nil_iff_forall_not_mem.2 fun m mem => ?_
      have entry := there m mem
      rw [empty] at entry
      cases entry
    exact absent ▸ .empty

/-- A table of fields comes back as an object of what they come back as. -/
theorem returned_obj {members : Members} {r : TableRef} (ascending : Ascending members)
    (unreserved : markerKey ∉ members.keys)
    (keys : (h.table r).keys = members.keys.map Value.text)
    (each : ∀ m ∈ members, ∀ {j' : Json},
      Becomes h g' ((h.table r).get (.text m.1)) j' → Returned g g' m.2 j')
    (becomes : Becomes h g' (.table r) j') : Returned g g' (.obj members) j' := by
  cases becomes with
  | list full =>
    have none := (Table.indexed_of_names keys).length
    exact absurd (none ▸ full.1) (Nat.lt_irrefl 0)
  | @record _ members' source _ ascending' _ complete there named become =>
    -- Each member comes from the entry under its own key.
    have origin : ∀ m' ∈ members', m'.1 ∈ members.keys ∧
        source m' = (.text m'.1, (h.table r).get (.text m'.1)) := by
      intro m' mem
      obtain ⟨m, there, same⟩ := Table.eq_of_names keys (there m' mem)
      have name := named m' mem
      rw [same, memberName?_text] at name
      rw [← Option.some.inj name]
      exact ⟨List.mem_map_of_mem there, same⟩
    have same : ∀ key, key ∈ members'.keys ↔ key ∈ members.keys := by
      intro key
      constructor
      · intro mem
        obtain ⟨m', there, rfl⟩ := List.mem_map.1 mem
        exact (origin m' there).1
      · intro mem
        have inside : Value.text key ∈ (h.table r).keys := keys ▸ List.mem_map_of_mem mem
        obtain ⟨e, entry, under⟩ := List.mem_map.1 inside
        obtain ⟨other, known, name⟩ := complete e entry
        rw [under, memberName?_text] at name
        exact Option.some.inj name ▸ known
    refine .obj unreserved (keys_eq_of_ascending ascending' ascending same) ?_
    intro m mem m' mem' name
    have here := become m' mem'
    rw [(origin m' mem').2, name] at here
    exact each m mem here

/-- What comes back is what went in. -/
theorem returned (entered : Entered h g j v) (becomes : Becomes h g' v j') :
    Returned g g' j j' := by
  induction entered generalizing j' with
  | bool b =>
    cases becomes
    exact .bool b
  | int n =>
    cases becomes
    exact .int n
  | @float x finite =>
    cases becomes
    exact .float x
  | str s =>
    rw [becomes.of_text]
    exact .str s
  | marker marks known =>
    cases becomes with
    | function kept =>
      rw [(Json.marker?_eq_some.1 marks).1]
      exact .marker known kept
  | arr _ keys _ ih => exact returned_arr keys ih becomes
  | obj _ ascending unreserved keys _ ih =>
    exact returned_obj ascending unreserved keys ih becomes

end Entered

/-- A value of the host that nests no deeper than the limit goes in, next to what is on the heap,
and comes back: as it was, but with empty objects for empty lists, and for each function a handle
under which the registry then has the same function. -/
theorem toJson_ofJson {j : Json} (given : Given g j) (nests : j.NestsWithin nestingLimit) (h : Heap)
    (location : Location) : h.Grows (ofJson g j h).2 ∧
      ∃ j' g', toJson (ofJson g j h).2 location (ofJson g j h).1 g = .ok j' g' ∧
        g.Within g' ∧ Returned g g' j j' := by
  obtain ⟨grows, entered⟩ := ofJson_entered given h
  obtain ⟨j', g', ok⟩ : Accepts (toJson (ofJson g j h).2 location (ofJson g j h).1) g :=
    (leaveWithin_accepts fun _ => entered.gapless).2 (entered.fits nests)
  obtain ⟨within, becomes⟩ := (toJson_converts _ location _ g).of_ok ok
  exact ⟨grows, j', g', ok, within, entered.returned becomes⟩

/-- A channel with a predicate, as a host may echo it: with a key of digits among its options, a
float that equals an integer, and a list that is empty. -/
def echo : Json :=
  .obj [("1", .str "first"), ("include", Handle.marker ⟨0⟩), ("overrides", .arr []),
    ("ratio", .float (.ofInt 2)), ("tags", .arr [.int 5, .int 8])]

/-- A registry with one function. -/
def single : Registry := ⟨[⟨7⟩]⟩

theorem echo_given : Given single echo := by
  refine .obj (by decide) (by decide) fun m mem => ?_
  simp only [List.mem_cons, List.not_mem_nil, or_false] at mem
  rcases mem with rfl | rfl | rfl | rfl | rfl
  · exact .str "first"
  · exact .marker (Json.marker?_eq_some.2 ⟨rfl, by decide⟩) (rfl : single.get? ⟨0⟩ = some ⟨7⟩)
  · exact .arr (List.forall_mem_nil _)
  · exact .float (by decide)
  · refine .arr fun v mem => ?_
    rcases List.mem_pair.1 mem with rfl | rfl
    · exact .int (by decide)
    · exact .int (by decide)

theorem echo_nests : echo.NestsWithin nestingLimit := by
  show echo.NestsWithin (30 + 1 + 1)
  refine .obj fun m mem => ?_
  simp only [List.mem_cons, List.not_mem_nil, or_false] at mem
  rcases mem with rfl | rfl | rfl | rfl | rfl
  · exact .str _ "first"
  · exact .marker _ ⟨0⟩
  · exact .arr (List.forall_mem_nil _)
  · exact .float _ _
  · refine .arr fun v mem => ?_
    rcases List.mem_pair.1 mem with rfl | rfl
    · exact .int _ 5
    · exact .int _ 8

theorem toJson_ofJson_echo : Given single echo ∧ echo.NestsWithin nestingLimit ∧
    ∃ j' g', toJson (ofJson single echo #[]).2 ⟨"x", []⟩ (ofJson single echo #[]).1 single =
      .ok j' g' ∧ single.Within g' ∧ Returned single g' echo j' :=
  ⟨echo_given, echo_nests, (toJson_ofJson echo_given echo_nests #[] ⟨"x", []⟩).2⟩

end Script
end GuildPlan
