import GuildPlan.Proofs.Checked

/-
  Empty lists and empty objects. A script has one empty table for both, so a reader takes the one
  for the other wherever it looks at a value, and where it does not look, the value is passed on.
  A value in which empty objects stand for all empty lists is therefore accepted just if the value
  itself is, and read as the same entity, but for the fields that are passed on: in these the same
  empty objects stand.
-/
namespace GuildPlan

/-! ## Values without empty lists -/

mutual

/-- The value with an empty object in the place of every empty list in it. -/
def Json.tabled : Json → Json
  | .arr [] => .obj []
  | .arr (v :: vs) => .arr (v.tabled :: tabledItems vs)
  | .obj members => .obj (tabledMembers members)
  | v => v

def Json.tabledItems : List Json → List Json
  | [] => []
  | v :: vs => v.tabled :: tabledItems vs

def Json.tabledMembers : List (String × Json) → List (String × Json)
  | [] => []
  | (key, v) :: rest => (key, v.tabled) :: tabledMembers rest

end

/-- The members with such values under the same keys. -/
def Members.tabled (ms : Members) : Members := ms.map fun m => (m.1, m.2.tabled)

namespace Json

theorem tabledItems_eq (vs : List Json) : tabledItems vs = vs.map tabled := by
  induction vs with
  | nil => rfl
  | cons v vs ih => rw [tabledItems, ih, List.map_cons]

theorem tabledMembers_eq (ms : Members) : tabledMembers ms = ms.tabled := by
  induction ms with
  | nil => rfl
  | cons m ms ih =>
    rw [tabledMembers, ih]
    rfl

theorem tabled_cons (v : Json) (vs : List Json) :
    (Json.arr (v :: vs)).tabled = .arr ((v :: vs).map tabled) := by
  rw [tabled, tabledItems_eq, List.map_cons]

theorem tabled_obj (ms : Members) : (Json.obj ms).tabled = .obj ms.tabled := by
  rw [tabled, tabledMembers_eq]

/-- Whatever gives one answer for all lists and objects makes no difference between a value and
the same value without empty lists. -/
theorem apply_tabled {β : Type} {f : Json → β} {b : β} (lists : ∀ items, f (.arr items) = b)
    (objects : ∀ members, f (.obj members) = b) (v : Json) : f v.tabled = f v := by
  cases v with
  | arr items =>
    rw [lists]
    cases items with
    | nil => exact objects []
    | cons v vs => exact lists _
  | obj members => exact (objects _).trans (objects members).symm
  | _ => rfl

@[simp] theorem isNull_tabled (v : Json) : v.tabled.isNull = v.isNull :=
  apply_tabled (fun _ => rfl) (fun _ => rfl) v

@[simp] theorem unsigned?_tabled (v : Json) : v.tabled.unsigned? = v.unsigned? :=
  apply_tabled (fun _ => rfl) (fun _ => rfl) v

@[simp] theorem marker?_tabled (v : Json) : v.tabled.marker? = v.marker? := by
  cases v with
  | arr items => cases items <;> rfl
  | obj members =>
    match members with
    | [] => rfl
    | [(key, n)] =>
      show (if key = markerKey then n.tabled.unsigned?.map Handle.mk else none) = _
      rw [unsigned?_tabled]
      rfl
    | _ :: _ :: _ => rfl
  | _ => rfl

end Json

namespace Members

theorem keys_tabled (ms : Members) : ms.tabled.keys = ms.keys := List.map_map

theorem get?_tabled (ms : Members) (key : String) :
    ms.tabled.get? key = (ms.get? key).map Json.tabled := by
  unfold get? tabled
  induction ms with
  | nil => rfl
  | cons m ms ih =>
    rw [List.map_cons, List.lookup_cons, List.lookup_cons, ih]
    split <;> rfl

theorem without_tabled (known : List String) (ms : Members) :
    ms.tabled.without known = (ms.without known).tabled := List.filter_map

end Members

/-! ## Entities -/

/-- The override with empty objects for empty lists in its further fields. -/
def Override.tabled (o : Override) : Override := { o with extra := o.extra.tabled }

/-- The channel with empty objects for empty lists in its options and in its overrides. -/
def Channel.tabled (c : Channel) : Channel :=
  { c with overrides := c.overrides.map Override.tabled, options := c.options.tabled }

def Category.tabled (c : Category) : Category :=
  { c with
    channels := c.channels.map Channel.tabled
    overrides := c.overrides.map Override.tabled }

namespace Schema

variable {α β γ δ : Type}

/-- The second answer is as good as the first: they are refused together, and otherwise the
second is what `f` makes of the first. -/
def Follows (f : α → β) (x : Checked α) (y : Checked β) : Prop :=
  ∀ b, y = .ok b ↔ ∃ a, x = .ok a ∧ b = f a

namespace Follows
variable {f : α → β} {x : Checked α} {y : Checked β}

theorem ok (a : α) : Follows f (.ok a) (.ok (f a)) := by
  intro b
  constructor
  · rintro ⟨⟩
    exact ⟨a, rfl, rfl⟩
  · rintro ⟨_, ⟨⟩, rfl⟩
    rfl

theorem refused (e e' : Invalid) : Follows f (.error e) (.error e') :=
  fun _ => ⟨nofun, fun ⟨_, ok, _⟩ => nomatch ok⟩

theorem refl (x : Checked α) : Follows id x x := by
  cases x with
  | ok a => exact .ok a
  | error e => exact .refused e e

theorem bind {g : γ → δ} {k : α → Checked γ} {k' : β → Checked δ} (first : Follows f x y)
    (rest : ∀ a, x = .ok a → Follows g (k a) (k' (f a))) : Follows g (x >>= k) (y >>= k') := by
  cases x with
  | error e =>
    cases y with
    | error e' => exact .refused e e'
    | ok b =>
      obtain ⟨_, ok, _⟩ := (first b).1 rfl
      cases ok
  | ok a =>
    cases (first (f a)).2 ⟨a, rfl, rfl⟩
    exact rest a rfl

theorem map {g : γ → δ} {k : α → γ} {k' : β → δ} (first : Follows f x y)
    (same : ∀ a, k' (f a) = g (k a)) : Follows g (x.map k) (y.map k') := by
  cases x with
  | error e =>
    cases y with
    | error e' => exact .refused e e'
    | ok b =>
      obtain ⟨_, ok, _⟩ := (first b).1 rfl
      cases ok
  | ok a =>
    cases (first (f a)).2 ⟨a, rfl, rfl⟩
    show Follows g (.ok (k a)) (.ok (k' (f a)))
    rw [same]
    exact .ok (k a)

end Follows

/-! ## Records -/

namespace Record
variable {r r' : Record}

/-- The record with empty objects for empty lists in its fields. -/
def tabled (r : Record) : Record := ⟨r.location, r.members.tabled⟩

theorem get?_tabled (r : Record) (key : String) :
    r.tabled.get? key = (r.get? key).map Json.tabled := by
  show (r.members.tabled.get? key).filter _ = ((r.members.get? key).filter _).map _
  rw [Members.get?_tabled, Option.filter_map]
  simp only [Function.comp_def, Json.isNull_tabled]

theorem rest_tabled (r : Record) (known : List String) :
    r.tabled.rest known = (r.rest known).tabled := Members.without_tabled known r.members

theorem ofJson_tabled (location : Location) (v : Json) :
    Follows tabled (ofJson location v) (ofJson location v.tabled) := by
  cases v with
  | obj members =>
    rw [Json.tabled_obj]
    exact .ok _
  | arr items =>
    cases items with
    | nil => exact .ok (f := tabled) ⟨location, []⟩
    | cons v vs => exact .refused _ _
  | _ => exact .refused _ _

theorem rejectUnknown_tabled (r : Record) (known : List String) :
    Follows id (r.rejectUnknown known) (r.tabled.rejectUnknown known) := by
  have same : r.tabled.rejectUnknown known = r.rejectUnknown known := by
    unfold rejectUnknown
    rw [show r.tabled.members.keys = r.members.keys from r.members.keys_tabled]
    rfl
  exact same ▸ .refl _

theorem snowflake?_tabled (v : Json) : snowflake? v.tabled = snowflake? v :=
  Json.apply_tabled (fun _ => rfl) (fun _ => rfl) v

theorem snowflakeAt_tabled (location : Location) (v : Json) :
    Follows id (snowflakeAt location v) (snowflakeAt location v.tabled) := by
  unfold snowflakeAt
  rw [snowflake?_tabled]
  split
  · exact .ok _
  · exact .refused _ _

theorem snowflake_tabled (r : Record) (key : String) :
    Follows id (r.snowflake key) (r.tabled.snowflake key) := by
  unfold snowflake
  rw [get?_tabled]
  cases r.get? key with
  | none => exact .refused _ _
  | some v => exact snowflakeAt_tabled _ v

theorem name_tabled (r : Record) (key : String) : Follows id (r.name key) (r.tabled.name key) := by
  unfold name
  rw [get?_tabled]
  cases r.get? key with
  | none => exact .refused _ _
  | some v =>
    cases v with
    | str s => exact .refl _
    | arr items => cases items <;> exact .refused _ _
    | _ => exact .refused _ _

theorem optionalString_tabled (r : Record) (key : String) :
    Follows id (r.optionalString key) (r.tabled.optionalString key) := by
  unfold optionalString
  rw [get?_tabled]
  cases r.get? key with
  | none => exact .ok _
  | some v =>
    cases v with
    | str s => exact .ok _
    | arr items => cases items <;> exact .refused _ _
    | _ => exact .refused _ _

theorem optionalBool_tabled (r : Record) (key : String) :
    Follows id (r.optionalBool key) (r.tabled.optionalBool key) := by
  unfold optionalBool
  rw [get?_tabled]
  cases r.get? key with
  | none => exact .ok _
  | some v =>
    cases v with
    | bool b => exact .ok _
    | arr items => cases items <;> exact .refused _ _
    | _ => exact .refused _ _

theorem optionalUnsigned_tabled (r : Record) (key : String) :
    Follows id (r.optionalUnsigned key) (r.tabled.optionalUnsigned key) := by
  unfold optionalUnsigned
  rw [get?_tabled]
  cases r.get? key with
  | none => exact .ok _
  | some v =>
    cases v with
    | int n => exact .refl _
    | arr items => cases items <;> exact .refused _ _
    | _ => exact .refused _ _

theorem list_tabled (r : Record) (key : String) :
    Follows (List.map Json.tabled) (r.list key) (r.tabled.list key) := by
  unfold list
  rw [get?_tabled]
  cases r.get? key with
  | none => exact .ok []
  | some v =>
    cases v with
    | arr items =>
      cases items with
      | nil => exact .ok []
      | cons v vs =>
        rw [Option.map_some, Json.tabled_cons]
        exact .ok _
    | obj members =>
      cases members with
      | nil => exact .ok []
      | cons m ms => exact .refused _ _
    | _ => exact .refused _ _

theorem predicate_tabled (r : Record) (key : String) :
    Follows id (r.predicate key) (r.tabled.predicate key) := by
  unfold predicate
  rw [get?_tabled]
  cases r.get? key with
  | none => exact .ok _
  | some v =>
    dsimp only [Option.map_some]
    rw [Json.marker?_tabled]
    split
    · exact .ok _
    · exact .refused _ _

theorem kind_tabled {κ : Type} [DecidableEq κ] (r : Record) (key : String) (expected : Option κ)
    (ofText? : String → Option κ) (choices : String) :
    Follows id (r.kind key expected ofText? choices)
      (r.tabled.kind key expected ofText? choices) := by
  unfold kind
  rw [get?_tabled]
  cases r.get? key with
  | none => exact .refl _
  | some v =>
    cases v with
    | str s => exact .refl _
    | arr items => cases items <;> exact .refused _ _
    | _ => exact .refused _ _

end Record

/-! ## Parts -/

theorem setting?_tabled (v : Json) : setting? v.tabled = setting? v :=
  Json.apply_tabled (fun _ => rfl) (fun _ => rfl) v

theorem readSettings_tabled (location : Location) (members : Members) :
    Follows id (readSettings location members) (readSettings location members.tabled) := by
  induction members with
  | nil => exact .ok _
  | cons m rest ih =>
    obtain ⟨key, v⟩ := m
    show Follows id _ (readSettings location ((key, v.tabled) :: Members.tabled rest))
    unfold readSettings
    rw [setting?_tabled]
    split
    · exact .refused _ _
    · exact ih.map fun _ => rfl

theorem readPermissions_tabled (r : Record) :
    Follows id (readPermissions r) (readPermissions r.tabled) := by
  unfold readPermissions
  rw [Record.get?_tabled]
  cases r.get? "permissions" with
  | none => exact .ok _
  | some v =>
    cases v with
    | arr items =>
      cases items with
      | nil => exact .ok ∅
      | cons v vs => exact .refused _ _
    | obj members =>
      rw [Option.map_some, Json.tabled_obj]
      exact (readSettings_tabled _ members).map fun _ => rfl
    | _ => exact .refused _ _

theorem readBits_tabled (r : Record) : Follows id (readBits r) (readBits r.tabled) := by
  unfold readBits
  rw [Record.get?_tabled]
  cases r.get? "permissions" with
  | none => exact .ok _
  | some v =>
    cases v with
    | str s => exact .refl _
    | int n => exact .refl _
    | arr items => cases items <;> exact .refused _ _
    | _ => exact .refused _ _

theorem color?_tabled (v : Json) : color? v.tabled = color? v :=
  Json.apply_tabled (fun _ => rfl) (fun _ => rfl) v

theorem readColor_tabled (r : Record) : Follows id (readColor r) (readColor r.tabled) := by
  unfold readColor
  rw [Record.get?_tabled]
  cases r.get? "color" with
  | none => exact .ok _
  | some v =>
    dsimp only [Option.map_some]
    rw [color?_tabled]
    exact .refl _

theorem readItems_tabled {f : α → α} {read : Location → Json → Checked α}
    (each : ∀ location v, Follows f (read location v) (read location v.tabled))
    (location : Location) (index : Nat) (vs : List Json) :
    Follows (List.map f) (readItems read location index vs)
      (readItems read location index (vs.map Json.tabled)) := by
  induction vs generalizing index with
  | nil => exact .ok []
  | cons v vs ih =>
    rw [List.map_cons, readItems, readItems]
    refine .bind (each _ v) fun x _ => .bind (ih _) fun xs _ => ?_
    exact .ok (f := List.map f) (x :: xs)

/-! ## Entities -/

theorem readRole_tabled (location : Location) (v : Json) :
    Follows id (readRole location v) (readRole location v.tabled) := by
  unfold readRole
  refine .bind (Record.ofJson_tabled location v) fun r _ => ?_
  refine .bind (r.rejectUnknown_tabled _) fun _ _ => .bind (r.snowflake_tabled _) fun _ _ => ?_
  refine .bind (r.name_tabled _) fun _ _ => .bind (readBits_tabled r) fun _ _ => ?_
  refine .bind (readColor_tabled r) fun _ _ => .bind (r.optionalBool_tabled _) fun _ _ => ?_
  exact .bind (r.optionalBool_tabled _) fun _ _ => .refl _

theorem readOverride_tabled (location : Location) (v : Json) :
    Follows Override.tabled (readOverride location v) (readOverride location v.tabled) := by
  unfold readOverride
  refine .bind (Record.ofJson_tabled location v) fun r _ => ?_
  refine .bind (r.snowflake_tabled _) fun _ _ => .bind (r.kind_tabled _ _ _ _) fun _ _ => ?_
  refine .bind (readPermissions_tabled r) fun _ _ => ?_
  rw [Record.rest_tabled]
  exact .ok (f := Override.tabled) _

theorem readOverrides_tabled (location : Location) (vs : List Json) :
    Follows (List.map Override.tabled) (readOverrides location vs)
      (readOverrides location (vs.map Json.tabled)) := by
  unfold readOverrides
  refine .bind (readItems_tabled readOverride_tabled location 0 vs) fun overrides _ => ?_
  have ids : (overrides.map Override.tabled).map Override.id = overrides.map Override.id :=
    List.map_map
  rw [ids]
  exact .bind (.refl _) fun _ _ => .ok (f := List.map Override.tabled) overrides

theorem checkOptions_tabled (r : Record) (kind : ChannelKind) :
    Follows id (checkOptions r kind) (checkOptions r.tabled kind) := by
  cases kind with
  | text =>
    refine .bind (r.optionalString_tabled _) fun _ _ => ?_
    refine .bind (r.optionalBool_tabled _) fun _ _ => ?_
    exact .bind (r.optionalUnsigned_tabled _) fun _ _ => .refl _
  | voice =>
    refine .bind (r.optionalUnsigned_tabled _) fun _ _ => ?_
    exact .bind (r.optionalUnsigned_tabled _) fun _ _ => .refl _

theorem readChannel_tabled (expected : Option ChannelKind) (location : Location) (v : Json) :
    Follows Channel.tabled (readChannel expected location v)
      (readChannel expected location v.tabled) := by
  unfold readChannel
  refine .bind (Record.ofJson_tabled location v) fun r _ => ?_
  refine .bind (r.snowflake_tabled _) fun _ _ => .bind (r.name_tabled _) fun _ _ => ?_
  refine .bind (r.kind_tabled _ _ _ _) fun kind _ => .bind (r.list_tabled _) fun vs _ => ?_
  refine .bind (readOverrides_tabled _ vs) fun _ _ => .bind (r.predicate_tabled _) fun _ _ => ?_
  refine .bind (checkOptions_tabled r kind) fun _ _ => ?_
  rw [Record.rest_tabled]
  exact .ok (f := Channel.tabled) _

theorem readCategory_tabled (location : Location) (v : Json) :
    Follows Category.tabled (readCategory location v) (readCategory location v.tabled) := by
  unfold readCategory
  refine .bind (Record.ofJson_tabled location v) fun r _ => ?_
  refine .bind (r.rejectUnknown_tabled _) fun _ _ => .bind (r.snowflake_tabled _) fun id _ => ?_
  refine .bind (r.name_tabled _) fun _ _ => .bind (r.list_tabled _) fun vs _ => ?_
  refine .bind (readItems_tabled (readChannel_tabled none) _ 0 vs) fun channels _ => ?_
  have ids : (channels.map Channel.tabled).map Channel.id = channels.map Channel.id :=
    List.map_map
  rw [ids]
  refine .bind (.refl _) fun _ _ => .bind (.refl _) fun _ _ => ?_
  refine .bind (r.list_tabled _) fun ws _ => .bind (readOverrides_tabled _ ws) fun _ _ => ?_
  exact .bind (r.predicate_tabled _) fun _ _ => .ok (f := Category.tabled) _

/-- A reader accepts a value just if it accepts the one with empty objects for its empty lists,
and finds the same entity in both, with empty objects in the fields that it passes on. -/
theorem empty_lists_read_as_empty_objects (location : Location) (v : Json) :
    (∀ role, readRole location v.tabled = .ok role ↔ readRole location v = .ok role) ∧
    (∀ expected channel, readChannel expected location v.tabled = .ok channel ↔
      ∃ c, readChannel expected location v = .ok c ∧ channel = c.tabled) ∧
    (∀ category, readCategory location v.tabled = .ok category ↔
      ∃ c, readCategory location v = .ok c ∧ category = c.tabled) ∧
    (∀ override, readOverride location v.tabled = .ok override ↔
      ∃ o, readOverride location v = .ok o ∧ override = o.tabled) := by
  refine ⟨fun role => ?_, fun expected => readChannel_tabled expected location v,
    readCategory_tabled location v, readOverride_tabled location v⟩
  rw [readRole_tabled location v role]
  -- A role passes no field on, so it is the same one.
  exact ⟨fun ⟨_, found, same⟩ => same ▸ found, fun found => ⟨role, found, rfl⟩⟩

end Schema
end GuildPlan
