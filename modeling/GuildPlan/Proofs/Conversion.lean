import GuildPlan.Proofs.KeyMap
import GuildPlan.Proofs.Spelling
import GuildPlan.Script.Exchange
import Mathlib.Tactic.Choose

/-
  What a script value becomes as JSON, and what the JSON says of the value. Every function in
  the value is kept by the registry, and the marker of its handle stands in its place; nothing
  else becomes a marker, because no script can write the reserved key. The registry only grows,
  so all of this stays true whatever is converted later.
-/
namespace GuildPlan

/-! ## Markers -/

theorem Json.marker?_eq_some {j : Json} {handle : Handle} :
    j.marker? = some handle ↔ j = handle.marker ∧ handle.index < Nat.pow 2 64 := by
  constructor
  · intro marks
    unfold marker? at marks
    split at marks
    · next key v =>
      split at marks
      · next reserved =>
        obtain ⟨n, read, rfl⟩ := Option.map_eq_some_iff.1 marks
        obtain ⟨rfl, fits⟩ := unsigned?_eq_some.1 read
        subst reserved
        exact ⟨rfl, fits⟩
      · cases marks
    · cases marks
  · rintro ⟨rfl, fits⟩
    have read : (Json.int handle.index).unsigned? = some handle.index :=
      unsigned?_eq_some.2 ⟨rfl, fits⟩
    show (if markerKey = markerKey then (Json.int handle.index).unsigned?.map Handle.mk
      else none) = some handle
    rw [if_pos rfl, read]
    rfl

theorem Handle.eq_of_marker_eq {a b : Handle} (same : a.marker = b.marker) : a = b := by
  cases a
  cases b
  have members := (List.cons.inj (Json.obj.inj same)).1
  have index := Json.int.inj (Prod.mk.inj members).2
  exact congrArg Handle.mk (Int.ofNat.inj index)

namespace Script

variable {α β : Type}

/-! ## Registries -/

/-- The functions of a registry are the first ones of another. -/
def Registry.Within (g g' : Registry) : Prop := g.functions <+: g'.functions

namespace Registry

theorem Within.refl (g : Registry) : g.Within g := List.prefix_rfl

theorem Within.trans {g g' g'' : Registry} (first : g.Within g') (second : g'.Within g'') :
    g.Within g'' := List.IsPrefix.trans first second

theorem within_add (g : Registry) (f : FunctionRef) : g.Within (g.add f).2 :=
  List.prefix_append g.functions [f]

theorem get?_add (g : Registry) (f : FunctionRef) : (g.add f).2.get? (g.add f).1 = some f :=
  List.getElem?_concat_length

/-- What a handle denotes, it denotes for ever. -/
theorem Within.get? {g g' : Registry} (h : g.Within g') {handle : Handle} {f : FunctionRef}
    (kept : g.get? handle = some f) : g'.get? handle = some f := by
  obtain ⟨inside, here⟩ := List.getElem?_eq_some_iff.1 kept
  obtain ⟨more, whole⟩ := h
  show g'.functions[handle.index]? = some f
  rw [← whole, List.getElem?_append_left inside]
  exact kept

/-- A registry knows the handles below its size and no others. -/
theorem get?_eq_none_iff (g : Registry) (handle : Handle) :
    g.get? handle = none ↔ g.size ≤ handle.index := List.getElem?_eq_none_iff

end Registry

/-! ## Tables -/

theorem Table.get_of_mem (t : Table) {key value : Value} (mem : (key, value) ∈ t.entries) :
    t.get key = value := by
  unfold get
  rw [(lookup_eq_some_iff_mem t.distinct).2 mem]
  rfl

theorem Table.mem_of_get (t : Table) {key : Value} (there : t.get key ≠ .nil) :
    (key, t.get key) ∈ t.entries := by
  unfold get at *
  cases found : t.entries.lookup key with
  | none =>
    rw [found] at there
    exact absurd rfl there
  | some value =>
    exact mem_of_lookup found

/-- The name that a key becomes. -/
def Value.memberName? : Value → Option String
  | .str bytes => Text.ofUtf8? bytes
  | .int n => some (Text.decimalInt n)
  | _ => none

theorem ofUtf8?_eq_some {bytes : ByteArray} {s : String} (ok : Text.ofUtf8? bytes = some s) :
    bytes = s.toUTF8 := by
  unfold Text.ofUtf8? String.fromUTF8? at ok
  split at ok
  · cases ok
    rfl
  · cases ok

theorem ofUtf8?_toUTF8 (s : String) : Text.ofUtf8? s.toUTF8 = some s := by
  unfold Text.ofUtf8? String.fromUTF8?
  rw [String.toUTF8_eq_toByteArray, dif_pos s.isValidUTF8]
  rfl

theorem memberName?_text (s : String) : (Value.text s).memberName? = some s := ofUtf8?_toUTF8 s

/-- A name that is no number. -/
def Word (key : String) : Prop := ∀ n, Text.decimalInt n ≠ key

theorem Word.eq_text {key : String} (word : Word key) {k : Value}
    (named : k.memberName? = some key) : k = .text key := by
  cases k with
  | str bytes => exact congrArg Value.str (ofUtf8?_eq_some named)
  | int n => exact absurd (Option.some.inj named) (word n)
  | _ => cases named

/-- Numbers begin with a digit or a minus sign. -/
theorem word_of_head {key : String} {c : Char} {cs : List Char} (spelled : key.toList = c :: cs)
    (sign : c ≠ '-') (digit : c.isDigit = false) : Word key := by
  rintro n rfl
  unfold Text.decimalInt Text.decimal at spelled
  split at spelled
  · rw [String.toList_append] at spelled
    exact sign (List.cons.inj spelled).1.symm
  · rw [String.toList_ofList] at spelled
    have mem : c ∈ Nat.toDigits 10 n.natAbs := spelled ▸ List.mem_cons_self
    rw [Nat.isDigit_of_mem_toDigits (by decide) (by decide) mem] at digit
    cases digit

/-! ## Conversions -/

/-- A conversion does away with no function, whether it is refused or not; what it gives, if
it gives anything, is as it should be. -/
def Leaves (x : Leaving α) (g : Registry) (P : α → Registry → Prop) : Prop :=
  match x g with
  | .ok a g' => g.Within g' ∧ P a g'
  | .error _ g' => g.Within g'

namespace Leaves
variable {g : Registry} {P : α → Registry → Prop} {Q : β → Registry → Prop}

theorem of_ok {x : Leaving α} {a : α} {g' : Registry} (h : Leaves x g P)
    (ok : x g = .ok a g') : g.Within g' ∧ P a g' := by
  unfold Leaves at h
  rw [ok] at h
  exact h

theorem of_error {x : Leaving α} {e : Invalid} {g' : Registry} (h : Leaves x g P)
    (error : x g = .error e g') : g.Within g' := by
  unfold Leaves at h
  rw [error] at h
  exact h

theorem pure {a : α} (here : P a g) : Leaves (Pure.pure a) g P := ⟨.refl g, here⟩

theorem refuse (location : Location) (constraint : Constraint) :
    Leaves (refuse location constraint) g P := Registry.Within.refl g

theorem register (f : FunctionRef) :
    Leaves (register f) g fun handle g' => g'.get? handle = some f :=
  ⟨g.within_add f, g.get?_add f⟩

theorem imp {P Q : α → Registry → Prop} {x : Leaving α} (h : Leaves x g P)
    (weaker : ∀ a g', P a g' → Q a g') : Leaves x g Q := by
  unfold Leaves
  cases left : x g with
  | error e g' => exact h.of_error left
  | ok a g' => exact ⟨(h.of_ok left).1, weaker a g' (h.of_ok left).2⟩

theorem bind {x : Leaving α} {f : α → Leaving β} (first : Leaves x g P)
    (rest : ∀ a g', g.Within g' → P a g' →
      Leaves (f a) g' fun b g'' => g'.Within g'' → Q b g'') : Leaves (x >>= f) g Q := by
  unfold Leaves
  change match EStateM.bind x f g with | .ok a g' => _ | .error _ g' => _
  unfold EStateM.bind
  cases left : x g with
  | error e g' => exact first.of_error left
  | ok a g' =>
    obtain ⟨within, here⟩ := first.of_ok left
    have others := rest a g' within here
    dsimp only
    cases more : f a g' with
    | error e g'' => exact within.trans (others.of_error more)
    | ok b g'' =>
      obtain ⟨within', there⟩ := others.of_ok more
      exact ⟨within.trans within', there within'⟩

end Leaves

/-- What the JSON of a value says of it, given what handles denote. A list has the items of a
table in their order; an object has a member for each entry of a table, and for each member
there is an entry that it comes from. -/
inductive Stands (h : Heap) (g : Registry) : Value → Json → Prop
  | nil : Stands h g .nil .null
  | null : Stands h g .null .null
  | bool (b : Bool) : Stands h g (.bool b) (.bool b)
  | int (n : Int) : Stands h g (.int n) (.int n)
  | float (x : Double) : Stands h g (.float x) (.float x)
  | text (s : String) : Stands h g (.text s) (.str s)
  | function {f : FunctionRef} {handle : Handle} (kept : g.get? handle = some f) :
    Stands h g (.function f) handle.marker
  | list {r : TableRef} {items : List Json}
    (each : ∀ n (inside : n < items.length),
      Stands h g ((h.table r).get (.int (n + 1 : Nat))) items[n]) :
    Stands h g (.table r) (.arr items)
  | record {r : TableRef} {members : Members} (source : String × Json → Value × Value)
    (unreserved : markerKey ∉ members.keys)
    (complete : ∀ e ∈ (h.table r).entries, ∃ key ∈ members.keys, e.1.memberName? = some key)
    (there : ∀ m ∈ members, source m ∈ (h.table r).entries)
    (named : ∀ m ∈ members, (source m).1.memberName? = some m.1)
    (each : ∀ m ∈ members, Stands h g (source m).2 m.2) :
    Stands h g (.table r) (.obj members)

/-- A table has as many entries as its length, which counts positional items. -/
abbrev Table.Full (t : Table) : Prop := 0 < t.length ∧ t.entries.length = t.length

/-- What a value becomes, given what handles denote. Of a full table nothing is looked at but
the values under the first indices; any other table becomes an object, each member of which is
what one of the entries with its name has become. -/
inductive Becomes (h : Heap) (g : Registry) : Value → Json → Prop
  | nil : Becomes h g .nil .null
  | null : Becomes h g .null .null
  | bool (b : Bool) : Becomes h g (.bool b) (.bool b)
  | int (n : Int) : Becomes h g (.int n) (.int n)
  | float (x : Double) : Becomes h g (.float x) (.float x)
  | text (s : String) : Becomes h g (.text s) (.str s)
  | function {f : FunctionRef} {handle : Handle} (kept : g.get? handle = some f) :
    Becomes h g (.function f) handle.marker
  | list {r : TableRef} {items : List Json} (full : (h.table r).Full)
    (sized : items.length = (h.table r).length)
    (each : ∀ n (inside : n < items.length),
      Becomes h g ((h.table r).get (.int (n + 1 : Nat))) items[n]) :
    Becomes h g (.table r) (.arr items)
  | record {r : TableRef} {members : Members} (source : String × Json → Value × Value)
    (other : ¬(h.table r).Full) (ascending : Ascending members)
    (unreserved : markerKey ∉ members.keys)
    (complete : ∀ e ∈ (h.table r).entries, ∃ key ∈ members.keys, e.1.memberName? = some key)
    (there : ∀ m ∈ members, source m ∈ (h.table r).entries)
    (named : ∀ m ∈ members, (source m).1.memberName? = some m.1)
    (each : ∀ m ∈ members, Becomes h g (source m).2 m.2) :
    Becomes h g (.table r) (.obj members)

/-- The members that some entries have become. -/
structure Gathered (h : Heap) (g : Registry) (entries : List (Value × Value)) (members : Members) :
    Prop where
  ascending : Ascending members
  unreserved : markerKey ∉ members.keys
  complete : ∀ e ∈ entries, ∃ key ∈ members.keys, e.1.memberName? = some key
  sources : ∀ m ∈ members, ∃ e ∈ entries, e.1.memberName? = some m.1 ∧ Becomes h g e.2 m.2

variable {h : Heap} {g g' : Registry}

/-- What a value has become stands for it. -/
theorem Becomes.stands {v : Value} {j : Json} (becomes : Becomes h g v j) : Stands h g v j := by
  induction becomes with
  | nil => exact .nil
  | null => exact .null
  | bool b => exact .bool b
  | int n => exact .int n
  | float x => exact .float x
  | text s => exact .text s
  | function kept => exact .function kept
  | list _ _ _ each => exact .list each
  | record source _ _ unreserved complete there named _ each =>
    exact .record source unreserved complete there named each

/-- What stands for a value stands for it for ever. -/
theorem Stands.mono {v : Value} {j : Json} (stands : Stands h g v j) (within : g.Within g') :
    Stands h g' v j := by
  induction stands with
  | nil => exact .nil
  | null => exact .null
  | bool b => exact .bool b
  | int n => exact .int n
  | float x => exact .float x
  | text s => exact .text s
  | function kept => exact .function (within.get? kept)
  | list _ each => exact .list each
  | record source unreserved complete there named _ each =>
    exact .record source unreserved complete there named each

theorem Becomes.mono {v : Value} {j : Json} (becomes : Becomes h g v j) (within : g.Within g') :
    Becomes h g' v j := by
  induction becomes with
  | nil => exact .nil
  | null => exact .null
  | bool b => exact .bool b
  | int n => exact .int n
  | float x => exact .float x
  | text s => exact .text s
  | function kept => exact .function (within.get? kept)
  | list full sized _ each => exact .list full sized each
  | record source other ascending unreserved complete there named _ each =>
    exact .record source other ascending unreserved complete there named each

namespace Gathered
variable {entries : List (Value × Value)} {members : Members}

theorem empty : Gathered h g [] [] := ⟨.nil, List.not_mem_nil, by simp, by simp⟩

theorem mono (gathered : Gathered h g entries members) (within : g.Within g') :
    Gathered h g' entries members where
  ascending := gathered.ascending
  unreserved := gathered.unreserved
  complete := gathered.complete
  sources m mem := by
    obtain ⟨e, there, named, becomes⟩ := gathered.sources m mem
    exact ⟨e, there, named, becomes.mono within⟩

theorem insert (gathered : Gathered h g entries members) {k v : Value} {key : String} {j : Json}
    (named : k.memberName? = some key) (unreserved : key ≠ markerKey)
    (becomes : Becomes h g v j) :
    Gathered h g (entries ++ [(k, v)]) (insertEntry key j members) where
  ascending := ascending_insertEntry key j gathered.ascending
  unreserved mem := (mem_keys_insertEntry.1 mem).elim unreserved.symm gathered.unreserved
  complete e mem := by
    rcases List.mem_append.1 mem with mem | mem
    · obtain ⟨other, there, same⟩ := gathered.complete e mem
      exact ⟨other, mem_keys_insertEntry.2 (.inr there), same⟩
    · cases List.mem_singleton.1 mem
      exact ⟨key, mem_keys_insertEntry.2 (.inl rfl), named⟩
  sources m mem := by
    rcases mem_insertEntry mem with rfl | mem
    · exact ⟨(k, v), List.mem_append_right _ List.mem_cons_self, named, becomes⟩
    · obtain ⟨e, there, same, becomes⟩ := gathered.sources m mem
      exact ⟨e, List.mem_append_left _ there, same, becomes⟩

theorem becomes {r : TableRef} (gathered : Gathered h g (h.table r).entries members)
    (other : ¬(h.table r).Full) : Becomes h g (.table r) (.obj members) := by
  choose! source there named each using gathered.sources
  exact .record source other gathered.ascending gathered.unreserved gathered.complete there
    named each

end Gathered

/-- Whatever is converted by `leave` at any place is what its value becomes. -/
def Converts (h : Heap) (leave : Location → Value → Leaving Json) : Prop :=
  ∀ location v g, Leaves (leave location v) g fun j g' => Becomes h g' v j

theorem memberName_leaves (location : Location) (k : Value) (g : Registry) :
    Leaves (memberName location k) g fun key _ => k.memberName? = some key := by
  unfold memberName
  split
  · split
    · next key read => exact .pure read
    · exact .refuse location _
  · exact .pure rfl
  · exact .refuse location _

theorem leaveItems_leaves {leave : Location → Value → Leaving Json} (converts : Converts h leave)
    (location : Location) (t : Table) (more n : Nat) (g : Registry) :
    Leaves (leaveItems leave location t n more) g fun items g' => items.length = more ∧
      ∀ i (inside : i < items.length), Becomes h g' (t.get (.int (n + i + 1 : Nat))) items[i] := by
  -- Induction on the number of items to come; what an item is outlasts the next ones.
  induction more generalizing n g with
  | zero => exact .pure ⟨rfl, fun i inside => absurd inside (Nat.not_lt_zero i)⟩
  | succ more ih =>
    refine .bind (converts _ _ g) fun item g₁ _ becomes => ?_
    refine .bind (ih (n + 1) g₁) fun items g₂ _ ⟨sized, others⟩ => .pure ?_
    refine fun _ within => ⟨congrArg (· + 1) sized, fun i inside => ?_⟩
    cases i with
    | zero => exact becomes.mono within
    | succ i =>
      have here := others i (Nat.lt_of_succ_lt_succ inside)
      rw [Nat.add_right_comm n 1 i] at here
      exact here

theorem leaveEntries_leaves {leave : Location → Value → Leaving Json}
    (converts : Converts h leave) (location : Location) (rest before : List (Value × Value))
    (members : Members) (g : Registry) (gathered : Gathered h g before members) :
    Leaves (leaveEntries leave location members rest) g fun ms g' =>
      Gathered h g' (before ++ rest) ms := by
  -- Induction on the entries to come; those before them have been gathered.
  induction rest generalizing before members g with
  | nil =>
    rw [List.append_nil]
    exact .pure gathered
  | cons e rest ih =>
    obtain ⟨k, v⟩ := e
    refine .bind (memberName_leaves location k g) fun key g₁ within named => ?_
    by_cases reserved : key = markerKey
    · simp only [if_pos reserved]
      exact .bind (.refuse (P := fun _ _ => False) _ _) fun _ _ _ never => never.elim
    · simp only [if_neg reserved]
      refine .bind (converts _ v g₁) fun j g₂ within' becomes => ?_
      have here := (gathered.mono (within.trans within')).insert named reserved becomes
      have others := ih _ _ g₂ here
      rw [List.append_assoc] at others
      exact others.imp fun _ _ all _ _ => all

/-- At every depth the values that are no tables become themselves. -/
theorem leaveWithin_converts_of_tables {depth : Nat} (tables : ∀ location r g,
      Leaves (leaveWithin h depth location (.table r)) g fun j g' => Becomes h g' (.table r) j) :
    Converts h (leaveWithin h depth) := by
  intro location v g
  cases v with
  | nil =>
    rw [leaveWithin]
    exact .pure .nil
  | null =>
    rw [leaveWithin]
    exact .pure .null
  | bool b =>
    rw [leaveWithin]
    exact .pure (.bool b)
  | int n =>
    rw [leaveWithin]
    exact .pure (.int n)
  | float x =>
    rw [leaveWithin]
    split
    · exact .pure (.float x)
    · exact .refuse location _
  | str bytes =>
    rw [leaveWithin]
    split
    · next s read => exact .pure (ofUtf8?_eq_some read ▸ .text s)
    · exact .refuse location _
  | function f =>
    rw [leaveWithin]
    exact .bind (.register f) fun handle g' _ kept => .pure fun _ => .function kept
  | table r => exact tables location r g
  | thread r =>
    rw [leaveWithin]
    · exact .refuse location _
    all_goals simp
  | fault id f =>
    rw [leaveWithin]
    · exact .refuse location _
    all_goals simp

theorem leaveWithin_converts (h : Heap) (depth : Nat) : Converts h (leaveWithin h depth) := by
  -- Induction on the depth: what a table holds is converted one level further down.
  induction depth with
  | zero =>
    refine leaveWithin_converts_of_tables fun location r g => ?_
    exact .refuse location _
  | succ depth ih =>
    refine leaveWithin_converts_of_tables fun location r g => ?_
    rw [leaveWithin]
    split
    · next full =>
      refine .bind (leaveItems_leaves ih location (h.table r) _ 0 g) fun items g' _ ⟨sized, each⟩ =>
        .pure fun _ => .list full sized fun n inside => ?_
      have here := each n inside
      rw [Nat.zero_add] at here
      exact here
    · next other =>
      refine .bind (leaveEntries_leaves ih location _ [] [] g .empty) fun ms g' _ gathered => ?_
      exact .pure fun _ => gathered.becomes other

theorem toJson_converts (h : Heap) : Converts h (toJson h) :=
  leaveWithin_converts h nestingLimit

theorem toJson_becomes {location : Location} {v : Value} {j : Json}
    (ok : toJson h location v g = .ok j g') : Becomes h g' v j :=
  ((toJson_converts h location v g).of_ok ok).2

/-! ## Looking into what stands for a value -/

namespace Stands

/-- Only a function has a marker as its JSON, and that marker is of a handle of its own. -/
theorem of_marker {v : Value} {j : Json} {handle : Handle} (stands : Stands h g v j)
    (marks : j.marker? = some handle) : ∃ f, v = .function f ∧ g.get? handle = some f := by
  cases stands with
  | function kept =>
    cases Handle.eq_of_marker_eq (Json.marker?_eq_some.1 marks).1
    exact ⟨_, rfl, kept⟩
  | record source unreserved =>
    cases (Json.marker?_eq_some.1 marks).1
    exact absurd List.mem_cons_self unreserved
  | _ => cases marks

/-- Each member of an object is what some entry has become. -/
theorem source {r : TableRef} {members : Members} {m : String × Json}
    (stands : Stands h g (.table r) (.obj members)) (mem : m ∈ members) :
    ∃ e ∈ (h.table r).entries, e.1.memberName? = some m.1 ∧ Stands h g e.2 m.2 := by
  cases stands with
  | record source _ _ there named each => exact ⟨source m, there m mem, named m mem, each m mem⟩

/-- A member with a name that is no number is what the entry with that name has become. -/
theorem member {r : TableRef} {members : Members} {key : String} {j : Json}
    (stands : Stands h g (.table r) (.obj members)) (word : Word key)
    (found : members.get? key = some j) : Stands h g ((h.table r).get (.text key)) j := by
  obtain ⟨⟨k, v⟩, there, named, here⟩ := stands.source (mem_of_lookup found)
  have under : k = .text key := word.eq_text named
  subst under
  rw [(h.table r).get_of_mem there]
  exact here

theorem no_member {r : TableRef} {members : Members} {key : String}
    (stands : Stands h g (.table r) (.obj members)) (missing : members.get? key = none) :
    (h.table r).get (.text key) = .nil := by
  cases stands with
  | record source _ complete =>
    by_contra there
    obtain ⟨other, mem, named⟩ := complete _ ((h.table r).mem_of_get there)
    rw [memberName?_text] at named
    cases named
    obtain ⟨m, here, same⟩ := List.mem_map.1 mem
    have apart := List.lookup_eq_none_iff.1 missing m here
    exact bne_iff_ne.1 apart same.symm

end Stands
end Script
end GuildPlan
