import GuildPlan.Proofs.Revalidation

/-
  The grammar of declared categories. The form of a category is told by what stands under
  which name, part by part and without a word about how it is checked; it says which values
  are categories, and of each of them what it declares. A value is read as a category exactly
  if it has the form of that category: nothing else is accepted, nothing that has the form is
  refused, and whatever the form does not name is kept as it is.
-/
namespace GuildPlan

/-! ## Fields -/

namespace Members

/-- A field that is left out, or null. -/
def Lacks (ms : Members) (key : String) : Prop :=
  ms.get? key = none ∨ ms.get? key = some .null

/-- A field that has a value of some form, if it has one. -/
def May (ms : Members) (key : String) (form : Json → Prop) : Prop :=
  ms.Lacks key ∨ ∃ v, ms.get? key = some v ∧ form v

/-- The items of a list. A field that is lacking has none, and an empty table has none. -/
inductive Lists (ms : Members) (key : String) : List Json → Prop
  | lacking : ms.Lacks key → Lists ms key []
  | table : ms.get? key = some (.obj []) → Lists ms key []
  | items {vs : List Json} : ms.get? key = some (.arr vs) → Lists ms key vs

/-- The predicate of a channel or a category: none, or the one that a marker stands for. -/
inductive Includes (ms : Members) : Option Handle → Prop
  | lacking : ms.Lacks "include" → Includes ms none
  | marker {h : Handle} : ms.get? "include" = some h.marker → h.index < Nat.pow 2 64 →
    Includes ms (some h)

end Members

namespace Json

def IsText (v : Json) : Prop := ∃ s, v = .str s
def IsBool (v : Json) : Prop := ∃ b, v = .bool b

/-- An integer that is not negative. Those of JSON have 64 bits. -/
def IsUnsigned (v : Json) : Prop := ∃ n : Nat, v = .int n ∧ n < Nat.pow 2 64

end Json

/-- A text with a character in it that is not white space. -/
def Text.Solid (s : String) : Prop := ∃ c ∈ s.toList, isBlank c = false

/-! ## Forms -/

/-- The ways to write a setting. -/
inductive Setting.Written : Setting → Json → Prop
  | yes : Written .allow (.bool true)
  | no : Written .deny (.bool false)
  | word (s : Setting) : Written s (.str s.text)

/-- The settings of an override: none, or a table of them. Of several members with one key
the last counts. -/
inductive PermissionTable.Form (ms : Members) (t : PermissionTable) : Prop
  | lacking : ms.Lacks "permissions" → t = ∅ → Form ms t
  | list : ms.get? "permissions" = some (.arr []) → t = ∅ → Form ms t
  | table {settings : Members} : ms.get? "permissions" = some (.obj settings) →
    (∀ m ∈ settings, ∃ s : Setting, s.Written m.2) →
    (∀ key s, t.get? key = some s ↔ ∃ v, settings.reverse.lookup key = some v ∧ s.Written v) →
    Form ms t

/-- An override: an object with an id, a kind of subject and settings, and any other fields. -/
inductive Override.Form (o : Override) : Json → Prop
  | object {ms : Members}
    (id : ∃ v, ms.get? "id" = some v ∧ o.id.Spelled v)
    (kind : ms.get? "type" = some (.str o.kind.text))
    (permissions : PermissionTable.Form ms o.permissions)
    (extra : o.extra = ms.without ["id", "type", "permissions"]) : Form o (.obj ms)

/-- A list of overrides, no two of them for one subject. -/
structure Override.Listed (ms : Members) (overrides : List Override) : Prop where
  each : ∃ vs, ms.Lists "overrides" vs ∧ List.Forall₂ (fun v o => Override.Form o v) vs overrides
  distinct : (overrides.map Override.id).Nodup

/-- The options that a kind of channel knows. -/
def ChannelKind.Options (ms : Members) : ChannelKind → Prop
  | .text => ms.May "topic" Json.IsText ∧ ms.May "nsfw" Json.IsBool ∧
    ms.May "slowmode" Json.IsUnsigned
  | .voice => ms.May "bitrate" Json.IsUnsigned ∧ ms.May "user_limit" Json.IsUnsigned

/-- A channel: an object with an id, a name, a kind, overrides, a predicate and the options of
its kind, and any other fields. -/
inductive Channel.Form (c : Channel) : Json → Prop
  | object {ms : Members}
    (id : ∃ v, ms.get? "id" = some v ∧ c.id.Spelled v)
    (name : ms.get? "name" = some (.str c.name)) (solid : Text.Solid c.name)
    (kind : ms.get? "type" = some (.str c.kind.name))
    (overrides : Override.Listed ms c.overrides)
    (inclusion : ms.Includes c.inclusion)
    (known : c.kind.Options ms)
    (options : c.options = ms.without ["id", "name", "type", "overrides", "include"]) :
    Form c (.obj ms)

/-- A category: an object with an id, a name, channels that have neither each other's ids nor
that of the category, overrides and a predicate, and with no other field. -/
inductive Category.Form (c : Category) : Json → Prop
  | object {ms : Members}
    (known : ∀ key ∈ ms.keys, key ∈ ["id", "name", "channels", "overrides", "include"])
    (id : ∃ v, ms.get? "id" = some v ∧ c.id.Spelled v)
    (name : ms.get? "name" = some (.str c.name)) (solid : Text.Solid c.name)
    (channels : ∃ vs, ms.Lists "channels" vs ∧
      List.Forall₂ (fun v channel => Channel.Form channel v) vs c.channels)
    (distinct : (c.channels.map Channel.id).Nodup)
    (others : c.id ∉ c.channels.map Channel.id)
    (overrides : Override.Listed ms c.overrides)
    (inclusion : ms.Includes c.inclusion) : Form c (.obj ms)

/-! ## Words -/

theorem ChannelKind.ofText?_eq_some {s : String} {kind : ChannelKind} :
    ofText? s = some kind ↔ s = kind.name := by
  constructor
  · intro read
    unfold ofText? at read
    split at read <;> cases read <;> rfl
  · rintro rfl
    exact ofText?_name kind

theorem SubjectKind.ofText?_eq_some {s : String} {kind : SubjectKind} :
    ofText? s = some kind ↔ s = kind.text := by
  constructor
  · intro read
    unfold ofText? at read
    split at read <;> cases read <;> rfl
  · rintro rfl
    exact ofText?_text kind

theorem Schema.setting?_eq_some {v : Json} {s : Setting} : setting? v = some s ↔ s.Written v := by
  constructor
  · intro read
    unfold setting? at read
    split at read <;> cases read
    · exact .yes
    · exact .no
    all_goals exact .word _
  · rintro (_ | _ | s)
    · rfl
    · rfl
    · cases s <;> rfl

theorem Text.allBlank_eq_false {s : String} : allBlank s = false ↔ Solid s := by
  simp [allBlank, Solid]

/-! ## Single fields -/

namespace Schema
namespace Record
variable {r : Record} {key : String}

theorem get?_eq_none {r : Record} {key : String} : r.get? key = none ↔ r.members.Lacks key := by
  unfold get? Members.Lacks
  cases found : r.members.get? key with
  | none => simp
  | some v => cases v <;> simp [Json.isNull]

theorem get?_eq_some {v : Json} :
    r.get? key = some v ↔ r.members.get? key = some v ∧ v.isNull = false := by
  unfold get?
  rw [Option.filter_eq_some_iff]
  simp

/-- A value of some form is read where no null has that form. -/
theorem exists_get?_iff {form : Json → Prop} (given : ¬form .null) :
    (∃ v, r.get? key = some v ∧ form v) ↔ ∃ v, r.members.get? key = some v ∧ form v := by
  constructor
  · rintro ⟨v, found, formed⟩
    exact ⟨v, (get?_eq_some.1 found).1, formed⟩
  · rintro ⟨v, found, formed⟩
    refine ⟨v, get?_eq_some.2 ⟨found, ?_⟩, formed⟩
    cases v <;> first | rfl | exact absurd formed given

theorem id_eq_ok {id : Snowflake} :
    r.snowflake key = .ok id ↔ ∃ v, r.members.get? key = some v ∧ id.Spelled v := by
  rw [snowflake_eq_ok]
  exact exists_get?_iff nofun

theorem text_eq_ok {s : String} :
    r.name key = .ok s ↔ r.members.get? key = some (.str s) ∧ Text.Solid s := by
  rw [name_eq_ok, Text.allBlank_eq_false, get?_eq_some]
  simp [Json.isNull]

theorem list_eq_ok {vs : List Json} : r.list key = .ok vs ↔ r.members.Lists key vs := by
  constructor
  · intro ok
    unfold list at ok
    split at ok
    · next absent =>
      cases ok
      exact .lacking (get?_eq_none.1 absent)
    · next found =>
      cases ok
      exact .items (get?_eq_some.1 found).1
    · next found =>
      cases ok
      exact .table (get?_eq_some.1 found).1
    · cases ok
  · rintro (lacking | found | found)
    · unfold list
      rw [get?_eq_none.2 lacking]
    · unfold list
      rw [get?_of_members found rfl]
    · exact list_of_arr found

theorem predicate_eq_ok {inclusion : Option Handle} :
    r.predicate "include" = .ok inclusion ↔ r.members.Includes inclusion := by
  constructor
  · intro ok
    unfold predicate at ok
    split at ok
    · next absent =>
      cases ok
      exact .lacking (get?_eq_none.1 absent)
    · next v found =>
      split at ok
      · next h marks =>
        cases ok
        obtain ⟨rfl, fits⟩ := Json.marker?_eq_some.1 marks
        exact .marker (get?_eq_some.1 found).1 fits
      · cases ok
  · rintro (lacking | ⟨found, fits⟩)
    · unfold predicate
      rw [get?_eq_none.2 lacking]
    · exact predicate_of_get? (get?_of_members found rfl) (Json.marker?_eq_some.2 ⟨rfl, fits⟩)

theorem kind_eq_ok {κ : Type} [DecidableEq κ] {ofText? : String → Option κ} {choices : String}
    {k : κ} : r.kind key none ofText? choices = .ok k ↔
      ∃ s, r.members.get? key = some (.str s) ∧ ofText? s = some k := by
  constructor
  · intro ok
    unfold kind at ok
    split at ok
    · cases ok
    · next s found =>
      split at ok
      · cases ok
      · next given read =>
        cases ok
        exact ⟨s, (get?_eq_some.1 found).1, read⟩
    · cases ok
  · rintro ⟨s, found, read⟩
    exact kind_of_text found read (.inl rfl)

theorem rejectUnknown_eq_ok {known : List String} {u : Unit} :
    r.rejectUnknown known = .ok u ↔ ∀ key ∈ r.members.keys, key ∈ known := by
  constructor
  · intro ok
    unfold rejectUnknown at ok
    split at ok
    · cases ok
    · next none =>
      intro key mem
      simpa using List.find?_eq_none.1 none key mem
  · intro named
    refine rejectUnknown_of_get? fun key other => ?_
    exact Members.get?_eq_none_iff.2 fun mem => other (named key mem)

/-! ## Options -/

theorem may_iff {form : Json → Prop} (given : ¬form .null) :
    r.members.May key form ↔ r.get? key = none ∨ ∃ v, r.get? key = some v ∧ form v := by
  rw [get?_eq_none, exists_get?_iff given]
  rfl

theorem optionalString_isOk :
    (∃ s, r.optionalString key = .ok s) ↔ r.members.May key Json.IsText := by
  rw [may_iff nofun]
  unfold optionalString
  cases r.get? key with
  | none => simp
  | some v => cases v <;> simp [Json.IsText, mistyped, reject]

theorem optionalBool_isOk :
    (∃ b, r.optionalBool key = .ok b) ↔ r.members.May key Json.IsBool := by
  rw [may_iff nofun]
  unfold optionalBool
  cases r.get? key with
  | none => simp
  | some v => cases v <;> simp [Json.IsBool, mistyped, reject]

theorem optionalUnsigned_isOk :
    (∃ n, r.optionalUnsigned key = .ok n) ↔ r.members.May key Json.IsUnsigned := by
  rw [may_iff nofun]
  unfold optionalUnsigned
  cases found : r.get? key with
  | none => simp
  | some v =>
    have unsigned : v.IsUnsigned ↔ ∃ n, v.unsigned? = some n := by
      simp [Json.IsUnsigned, Json.unsigned?_eq_some]
    simp only [reduceCtorEq, Option.some.injEq, exists_eq_left', false_or, unsigned]
    cases read : v.unsigned? with
    | some n => simp
    | none => cases v <;> simp [mistyped, reject]

end Record

theorem checkOptions_eq_ok {r : Record} {kind : ChannelKind} {u : Unit} :
    checkOptions r kind = .ok u ↔ kind.Options r.members := by
  cases kind with
  | text =>
    simp only [checkOptions, Checked.bind_eq_ok, ChannelKind.Options,
      ← Record.optionalString_isOk, ← Record.optionalBool_isOk, ← Record.optionalUnsigned_isOk]
    constructor
    · rintro ⟨topic, named, nsfw, flagged, slowmode, limited, _⟩
      exact ⟨⟨topic, named⟩, ⟨nsfw, flagged⟩, ⟨slowmode, limited⟩⟩
    · rintro ⟨⟨topic, named⟩, ⟨nsfw, flagged⟩, ⟨slowmode, limited⟩⟩
      exact ⟨topic, named, nsfw, flagged, slowmode, limited, rfl⟩
  | voice =>
    simp only [checkOptions, Checked.bind_eq_ok, ChannelKind.Options,
      ← Record.optionalUnsigned_isOk]
    constructor
    · rintro ⟨bitrate, rated, limit, limited, _⟩
      exact ⟨⟨bitrate, rated⟩, ⟨limit, limited⟩⟩
    · rintro ⟨⟨bitrate, rated⟩, ⟨limit, limited⟩⟩
      exact ⟨bitrate, rated, limit, limited, rfl⟩

/-! ## Lists -/

/-- A list is read item by item, wherever the items stand. -/
theorem readItems_eq_ok {α : Type} {read : Location → Json → Checked α} {form : α → Json → Prop}
    (each : ∀ location v x, read location v = .ok x ↔ form x v) {location : Location} {index : Nat}
    {vs : List Json} {xs : List α} : readItems read location index vs = .ok xs ↔
      List.Forall₂ (fun v x => form x v) vs xs := by
  induction vs generalizing index xs with
  | nil =>
    rw [List.forall₂_nil_left_iff, readItems, Except.ok.injEq, eq_comm]
  | cons v vs ih =>
    simp only [readItems, Checked.bind_eq_ok, each, ih, List.forall₂_cons_left_iff]
    constructor
    · rintro ⟨x, first, rest, others, ok⟩
      cases ok
      exact ⟨x, rest, first, others, rfl⟩
    · rintro ⟨x, rest, first, others, rfl⟩
      exact ⟨x, first, rest, others, rfl⟩

theorem requireUnique_eq_ok {location : Location} {ids : List Snowflake} {u : Unit} :
    requireUnique location ids = .ok u ↔ ids.Nodup :=
  ⟨nodup_of_requireUnique, fun distinct => requireUnique_of_nodup distinct location⟩

theorem requireOtherIds_eq_ok {location : Location} {id : Snowflake} {ids : List Snowflake}
    {u : Unit} : requireOtherIds location id ids = .ok u ↔ id ∉ ids :=
  ⟨notMem_of_requireOtherIds, fun other => requireOtherIds_of_notMem other location⟩

/-! ## Settings -/

theorem readSettings_eq_ok {location : Location} {settings : Members}
    {entries : List (String × Setting)} : readSettings location settings = .ok entries ↔
      List.Forall₂ (fun m e => e.1 = m.1 ∧ Setting.Written e.2 m.2) settings entries := by
  induction settings generalizing entries with
  | nil => rw [List.forall₂_nil_left_iff, readSettings, Except.ok.injEq, eq_comm]
  | cons m rest ih =>
    obtain ⟨key, v⟩ := m
    rw [List.forall₂_cons_left_iff]
    constructor
    · intro ok
      unfold readSettings at ok
      split at ok
      · cases ok
      · next s read =>
        cases below : readSettings location rest with
        | error e =>
          rw [below] at ok
          cases ok
        | ok others =>
          rw [below] at ok
          cases ok
          exact ⟨(key, s), others, ⟨rfl, setting?_eq_some.1 read⟩, ih.1 below, rfl⟩
    · rintro ⟨⟨_, s⟩, others, ⟨rfl, written⟩, ok, rfl⟩
      unfold readSettings
      rw [setting?_eq_some.2 written, ih.2 ok]
      rfl

end Schema

theorem Setting.Written.unique {s s' : Setting} {v : Json} (h : s.Written v) (h' : s'.Written v) :
    s = s' :=
  Option.some.inj ((Schema.setting?_eq_some.2 h).symm.trans (Schema.setting?_eq_some.2 h'))

/-- A list is related to some list exactly if each of its elements is related to something. -/
theorem exists_forall₂ {α β : Type} {R : α → β → Prop} {xs : List α} :
    (∃ ys, List.Forall₂ R xs ys) ↔ ∀ x ∈ xs, ∃ y, R x y := by
  induction xs with
  | nil => exact ⟨fun _ => List.forall_mem_nil _, fun _ => ⟨[], .nil⟩⟩
  | cons x xs ih =>
    rw [List.forall_mem_cons, ← ih]
    constructor
    · rintro ⟨_, _ | ⟨related, others⟩⟩
      exact ⟨⟨_, related⟩, _, others⟩
    · rintro ⟨⟨y, related⟩, ys, others⟩
      exact ⟨y :: ys, .cons related others⟩

/-- Every value of a table is a setting exactly if the settings of all of them can be told. -/
theorem exists_forall₂_written {settings : Members} :
    (∃ entries, List.Forall₂ (fun m (e : String × Setting) => e.1 = m.1 ∧ e.2.Written m.2)
      settings entries) ↔ ∀ m ∈ settings, ∃ s : Setting, s.Written m.2 := by
  rw [exists_forall₂]
  refine forall₂_congr fun m _ => ?_
  constructor
  · rintro ⟨_, _, written⟩
    exact ⟨_, written⟩
  · rintro ⟨s, written⟩
    exact ⟨(m.1, s), rfl, written⟩

/-- Entries with values under the same keys are found together. -/
theorem lookup_of_forall₂ {settings : Members} {entries : List (String × Setting)}
    (same : List.Forall₂ (fun m e => e.1 = m.1 ∧ Setting.Written e.2 m.2) settings entries)
    {key : String} {s : Setting} : entries.lookup key = some s ↔
      ∃ v, settings.lookup key = some v ∧ s.Written v := by
  induction same with
  | nil => simp
  | @cons m e _ _ here _ ih =>
    obtain ⟨k, v⟩ := m
    obtain ⟨_, s'⟩ := e
    obtain ⟨rfl, written⟩ := here
    rw [lookup_cons_eq, lookup_cons_eq]
    split
    · constructor
      · rintro ⟨⟩
        exact ⟨v, rfl, written⟩
      · rintro ⟨_, ⟨⟩, written'⟩
        have same : s' = s := Setting.Written.unique written written'
        rw [same]
    · exact ih

namespace Schema

theorem readPermissions_eq_ok {r : Record} {t : PermissionTable} :
    readPermissions r = .ok t ↔ PermissionTable.Form r.members t := by
  constructor
  · intro ok
    unfold readPermissions at ok
    split at ok
    · next absent =>
      cases ok
      exact .lacking (Record.get?_eq_none.1 absent) rfl
    · next found =>
      cases ok
      exact .list (Record.get?_eq_some.1 found).1 rfl
    · next settings found =>
      obtain ⟨entries, read, rfl⟩ := Checked.map_eq_ok ok
      have same := readSettings_eq_ok.1 read
      refine .table (Record.get?_eq_some.1 found).1 ?_ fun key s => ?_
      · exact exists_forall₂_written.1 ⟨entries, same⟩
      · rw [KeyMap.get?_ofList_reverse]
        exact lookup_of_forall₂ (List.rel_reverse same)
    · cases ok
  · rintro (⟨lacking, rfl⟩ | ⟨found, rfl⟩ | ⟨found, written, looked⟩)
    · unfold readPermissions
      rw [Record.get?_eq_none.2 lacking]
    · unfold readPermissions
      rw [Record.get?_of_members found rfl]
    · obtain ⟨entries, same⟩ := exists_forall₂_written.2 written
      have whole : KeyMap.ofList entries = t := by
        refine KeyMap.ext_get? fun key => Option.ext fun s => ?_
        rw [looked, KeyMap.get?_ofList_reverse]
        exact lookup_of_forall₂ (List.rel_reverse same)
      unfold readPermissions
      rw [Record.get?_of_members found rfl]
      show (readSettings _ _).map KeyMap.ofList = .ok t
      rw [readSettings_eq_ok.2 same, ← whole]
      rfl

/-! ## Overrides, channels and categories -/

/-- What has an id is an object. -/
theorem obj_of_ofJson {location : Location} {v : Json} {r : Record} {key : String} {j : Json}
    (taken : Record.ofJson location v = .ok r) (found : r.members.get? key = some j) :
    v = .obj r.members := by
  obtain object | none := Record.ofJson_eq_ok taken
  · exact object
  · rw [none] at found
    cases found

theorem readOverride_eq_ok (location : Location) (v : Json) (o : Override) :
    readOverride location v = .ok o ↔ o.Form v := by
  unfold readOverride
  simp only [Checked.bind_eq_ok, Record.id_eq_ok, Record.kind_eq_ok,
    SubjectKind.ofText?_eq_some, readPermissions_eq_ok]
  constructor
  · rintro ⟨r, taken, id, ⟨j, found, spelled⟩, _, ⟨_, kind, rfl⟩, permissions, settings, ok⟩
    cases ok
    rw [obj_of_ofJson taken found]
    exact .object ⟨j, found, spelled⟩ kind settings rfl
  · rintro ⟨id, kind, permissions, extra⟩
    refine ⟨⟨location, _⟩, rfl, o.id, id, o.kind, ⟨_, kind, rfl⟩, o.permissions, permissions, ?_⟩
    rw [Record.rest, ← extra]
    rfl

theorem readOverrides_eq_ok {location : Location} {r : Record} {overrides : List Override} :
    (∃ vs, r.list "overrides" = .ok vs ∧ readOverrides location vs = .ok overrides) ↔
      Override.Listed r.members overrides := by
  have items : ∀ {vs xs}, readItems readOverride location 0 vs = .ok xs ↔
      List.Forall₂ (fun v o => Override.Form o v) vs xs :=
    readItems_eq_ok readOverride_eq_ok
  unfold readOverrides
  simp only [Record.list_eq_ok, Checked.bind_eq_ok, items, requireUnique_eq_ok]
  constructor
  · rintro ⟨vs, listed, _, formed, _, distinct, ok⟩
    cases ok
    exact ⟨⟨vs, listed, formed⟩, distinct⟩
  · rintro ⟨⟨vs, listed, formed⟩, distinct⟩
    exact ⟨vs, listed, overrides, formed, (), distinct, rfl⟩

theorem readChannel_eq_ok (location : Location) (v : Json) (c : Channel) :
    readChannel none location v = .ok c ↔ c.Form v := by
  unfold readChannel
  simp only [Checked.bind_eq_ok, Record.id_eq_ok, Record.text_eq_ok, Record.kind_eq_ok,
    ChannelKind.ofText?_eq_some, Record.predicate_eq_ok, checkOptions_eq_ok]
  constructor
  · rintro ⟨r, taken, id, ⟨j, found, spelled⟩, name, ⟨named, solid⟩, _, ⟨_, kind, rfl⟩, vs, listed,
      overrides, read, inclusion, included, _, known, ok⟩
    cases ok
    rw [obj_of_ofJson taken found]
    exact .object ⟨j, found, spelled⟩ named solid kind (readOverrides_eq_ok.1 ⟨vs, listed, read⟩)
      included known rfl
  · rintro @⟨ms, id, named, solid, kind, overrides, inclusion, known, options⟩
    let r : Record := ⟨location, ms⟩
    obtain ⟨vs, listed, read⟩ : ∃ vs, r.list "overrides" = .ok vs ∧
        readOverrides (r.place "overrides") vs = .ok c.overrides :=
      readOverrides_eq_ok.2 overrides
    refine ⟨r, rfl, c.id, id, c.name, ⟨named, solid⟩, c.kind, ⟨_, kind, rfl⟩, vs, listed,
      c.overrides, read, c.inclusion, inclusion, (), known, ?_⟩
    rw [Record.rest, channelFields, ← options]
    rfl

/-- A value is read as a category exactly if it has the form of that category. -/
theorem readCategory_eq_ok (location : Location) (v : Json) (c : Category) :
    readCategory location v = .ok c ↔ c.Form v := by
  have items : ∀ {place vs xs}, readItems (readChannel none) place 0 vs = .ok xs ↔
      List.Forall₂ (fun v channel => Channel.Form channel v) vs xs :=
    readItems_eq_ok readChannel_eq_ok
  unfold readCategory
  simp only [Checked.bind_eq_ok, Record.rejectUnknown_eq_ok, Record.id_eq_ok, Record.text_eq_ok,
    items, requireUnique_eq_ok, requireOtherIds_eq_ok, Record.predicate_eq_ok]
  constructor
  · rintro ⟨r, taken, _, known, id, ⟨j, found, spelled⟩, name, ⟨named, solid⟩, vs, listed,
      channels, formed, _, distinct, _, others, ws, below, overrides, read, inclusion, included, ok⟩
    cases ok
    rw [obj_of_ofJson taken found]
    exact .object known ⟨j, found, spelled⟩ named solid
      ⟨vs, Record.list_eq_ok.1 listed, formed⟩ distinct others
      (readOverrides_eq_ok.1 ⟨ws, below, read⟩) included
  · rintro @⟨ms, known, id, named, solid, ⟨vs, listed, formed⟩, distinct, others, overrides,
      inclusion⟩
    let r : Record := ⟨location, ms⟩
    obtain ⟨ws, below, read⟩ : ∃ ws, r.list "overrides" = .ok ws ∧
        readOverrides (r.place "overrides") ws = .ok c.overrides :=
      readOverrides_eq_ok.2 overrides
    exact ⟨r, rfl, (), known, c.id, id, c.name, ⟨named, solid⟩, vs, Record.list_eq_ok.2 listed,
      c.channels, formed, (), distinct, (), others, ws, below, c.overrides, read, c.inclusion,
      inclusion, rfl⟩

end Schema
end GuildPlan
