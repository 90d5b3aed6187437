import GuildPlan.Proofs.Conversion
import GuildPlan.Proofs.Roles

/-
  Entities that are read back. What a reader accepts has the form that the reader asks for, and
  an entity of that form is read from what a script gets of it, wherever that stands: every part
  is written under the name under which it is looked for, and the further fields, which have
  other names, are carried along in their order. So an entity that was read is read as itself
  from then on.
-/
namespace GuildPlan

/-! ## Parts -/

namespace Schema

namespace Record
variable {r : Record} {key : String}

theorem lt_of_predicate {inclusion : Option Handle} (ok : r.predicate key = .ok inclusion) :
    ∀ h ∈ inclusion, h.index < Nat.pow 2 64 := by
  unfold predicate at ok
  split at ok
  · cases ok
    nofun
  · split at ok
    · next marks =>
      cases ok
      rintro _ ⟨⟩
      exact (Json.marker?_eq_some.1 marks).2
    · cases ok

theorem predicate_of_get? {j : Json} {h : Handle} (found : r.get? key = some j)
    (marks : j.marker? = some h) : r.predicate key = .ok (some h) := by
  -- For a marker in the place of `j` the check of its number would be evaluated, bit by bit.
  unfold predicate
  rw [found]
  simp only [marks]

/-- The marker of a handle is read as the handle. -/
theorem predicate_of_marker {inclusion : Option Handle}
    (found : r.members.get? key = inclusion.map Handle.marker)
    (fits : ∀ h ∈ inclusion, h.index < Nat.pow 2 64) : r.predicate key = .ok inclusion := by
  cases inclusion with
  | none =>
    have absent : r.get? key = none := congrArg (Option.filter _) found
    unfold predicate
    rw [absent]
  | some h =>
    exact predicate_of_get? (get?_of_members found rfl) (Json.marker?_eq_some.2 ⟨rfl, fits h rfl⟩)

end Record

/-- What is read from each written form at any place is read from the list of them. -/
theorem readItems_map {α : Type} {read : Location → Json → Checked α} {write : α → Json}
    {xs : List α} (each : ∀ x ∈ xs, ∀ place, read place (write x) = .ok x) (location : Location)
    (index : Nat) : readItems read location index (xs.map write) = .ok xs := by
  induction xs generalizing index with
  | nil => rfl
  | cons x xs ih =>
    obtain ⟨first, others⟩ := List.forall_mem_cons.1 each
    rw [List.map_cons, readItems, first, ih others]
    rfl

theorem firstRepeat_of_nodup {seen ids : List Snowflake} (distinct : ids.Nodup)
    (unseen : ∀ id ∈ ids, id ∉ seen) (index : Nat) : firstRepeat seen index ids = none := by
  induction ids generalizing seen index with
  | nil => rfl
  | cons id ids ih =>
    obtain ⟨fresh, others⟩ := List.nodup_cons.1 distinct
    obtain ⟨new, rest⟩ := List.forall_mem_cons.1 unseen
    unfold firstRepeat
    rw [if_neg new]
    refine ih others (fun other mem => ?_) _
    rw [List.mem_cons, not_or]
    exact ⟨fun same => fresh (same ▸ mem), rest other mem⟩

theorem requireUnique_of_nodup {ids : List Snowflake} (distinct : ids.Nodup)
    (location : Location) : requireUnique location ids = .ok () := by
  unfold requireUnique
  rw [firstRepeat_of_nodup distinct fun _ _ => List.not_mem_nil]

theorem requireOtherIds_of_notMem {id : Snowflake} {ids : List Snowflake} (other : id ∉ ids)
    (location : Location) : requireOtherIds location id ids = .ok () := by
  have absent : ids.findIdx? (· = id) = none := by
    refine List.findIdx?_eq_none_iff.2 fun id' mem => decide_eq_false ?_
    rintro rfl
    exact other mem
  unfold requireOtherIds
  rw [absent]

/-! ## Overrides -/

/-- The fields of an override that are not carried along. -/
def overrideFields : List String := ["id", "type", "permissions"]

theorem readSettings_map (location : Location) (settings : List (String × Setting)) :
    readSettings location (settings.map fun e => (e.1, Json.str e.2.text)) = .ok settings := by
  induction settings with
  | nil => rfl
  | cons e rest ih =>
    obtain ⟨key, setting⟩ := e
    have read : setting? (.str setting.text) = some setting := by cases setting <;> rfl
    rw [List.map_cons, readSettings, read, ih]
    rfl

/-- A table of settings is read from its written form. -/
theorem readPermissions_of_map {r : Record} {t : PermissionTable}
    (found : r.members.get? "permissions" = some (.obj (t.map (Json.str ·.text)).entries)) :
    readPermissions r = .ok t := by
  unfold readPermissions
  rw [Record.get?_of_members found rfl]
  show (readSettings _ (t.entries.map fun e => (e.1, Json.str e.2.text))).map KeyMap.ofList = .ok t
  rw [readSettings_map]
  exact congrArg Except.ok t.ofList_entries

end Schema

/-- The further fields of an override that was read are in order, under names of their own. -/
structure Override.Valid (o : Override) : Prop where
  extra : Members.Beside Schema.overrideFields o.extra

namespace Override
variable {o : Override}

/-- The members of the written form that are not carried along. -/
def named (o : Override) : Members :=
  [("id", .str o.id.text), ("type", .str o.kind.text),
    ("permissions", .obj (o.permissions.map (Json.str ·.text)).entries)]

theorem Valid.get?_toScript (valid : o.Valid) (key : String) :
    (Members.ofList o.fields).get? key =
      if key ∈ Schema.overrideFields then o.named.get? key else o.extra.get? key := by
  have distinct : Schema.overrideFields.Nodup := by decide
  exact valid.extra.get?_ofList distinct (List.Subset.refl _)

end Override

namespace Schema

theorem readOverride_valid {location : Location} {v : Json} {o : Override}
    (canonical : v.Canonical) (ok : readOverride location v = .ok o) : o.Valid := by
  unfold readOverride at ok
  simp only [Checked.bind_eq_ok] at ok
  obtain ⟨r, taken, _, _, _, _, _, _, ok⟩ := ok
  cases ok
  exact ⟨Members.beside_without _ (Record.canonical_of_ofJson canonical taken).1⟩

/-- An override that was read is read from what a script gets of it. -/
theorem readOverride_toScript {o : Override} (valid : o.Valid) (location : Location) :
    readOverride location o.toScript = .ok o := by
  let r : Record := ⟨location, Members.ofList o.fields⟩
  have found : ∀ key, r.members.get? key = _ := valid.get?_toScript
  have id : r.snowflake "id" = .ok o.id := Record.snowflake_of_text (found "id")
  have kind : r.kind "type" none SubjectKind.ofText? subjectChoices = .ok o.kind :=
    Record.kind_of_text (found "type") (SubjectKind.ofText?_text o.kind) (.inl rfl)
  have permissions : readPermissions r = .ok o.permissions :=
    readPermissions_of_map (found "permissions")
  have rest : r.rest overrideFields = o.extra :=
    valid.extra.without_eq (Members.ascending_ofList _) fun key other =>
      (found key).trans (if_neg other)
  have taken : Record.ofJson location o.toScript = .ok r := rfl
  unfold readOverride
  rw [taken]
  simp only [Checked.ok_bind, id, kind, permissions]
  rw [show r.rest ["id", "type", "permissions"] = o.extra from rest]
  rfl

end Schema

/-! ## Channels -/

/-- What a channel satisfies that was read. -/
structure Channel.Valid (c : Channel) : Prop where
  name : Text.allBlank c.name = false
  distinct : DistinctSubjects c.overrides
  overrides : ∀ o ∈ c.overrides, o.Valid
  options : Members.Beside Schema.channelFields c.options
  admitted : ∀ location, Schema.checkOptions ⟨location, c.options⟩ c.kind = .ok ()
  inclusion : ∀ h ∈ c.inclusion, h.index < Nat.pow 2 64

namespace Members
variable {ms : Members} {inclusion : Option Handle} {key : String}

theorem ascending_withInclusion (h : Ascending ms) : Ascending (ms.withInclusion inclusion) := by
  unfold withInclusion
  split
  · exact ascending_insertEntry _ _ h
  · exact h

theorem get?_withInclusion (absent : ms.get? "include" = none) :
    (ms.withInclusion inclusion).get? key =
      if key = "include" then inclusion.map Handle.marker else ms.get? key := by
  unfold withInclusion
  split
  · exact lookup_insertEntry _ _ _ _
  · split
    · next same => exact same ▸ absent
    · rfl

end Members

namespace Channel
variable {c : Channel}

/-- The members of the written form that are no options. -/
def named (c : Channel) : Members :=
  [("id", .str c.id.text), ("name", .str c.name), ("type", .str c.kind.name),
    ("overrides", .arr (c.overrides.map Override.toScript))]

theorem keys_named (c : Channel) :
    c.named.keys.Nodup ∧ c.named.keys ⊆ Schema.channelFields := by
  show ["id", "name", "type", "overrides"].Nodup ∧
    ["id", "name", "type", "overrides"] ⊆ Schema.channelFields
  decide

/-- The members of what a script gets. -/
def members (c : Channel) : Members :=
  (Members.ofList (c.fields (c.overrides.map Override.toScript))).withInclusion c.inclusion

theorem ascending_members (c : Channel) : Ascending c.members :=
  Members.ascending_withInclusion (Members.ascending_ofList _)

theorem Valid.get?_members (valid : c.Valid) (key : String) :
    c.members.get? key =
      if key = "include" then c.inclusion.map Handle.marker
      else if key ∈ Schema.channelFields then c.named.get? key else c.options.get? key := by
  obtain ⟨distinct, known⟩ := c.keys_named
  have found : ∀ key, (Members.ofList (c.named ++ c.options)).get? key =
      if key ∈ Schema.channelFields then c.named.get? key else c.options.get? key :=
    fun key => valid.options.get?_ofList distinct known
  exact (Members.get?_withInclusion (found "include")).trans (by rw [found])

end Channel

namespace Schema

theorem readOverrides_valid {location : Location} {vs : List Json} {overrides : List Override}
    (canonical : ∀ v ∈ vs, v.Canonical) (ok : readOverrides location vs = .ok overrides) :
    ∀ o ∈ overrides, o.Valid := by
  unfold readOverrides at ok
  obtain ⟨_, read, ok⟩ := Checked.bind_eq_ok.1 ok
  obtain ⟨_, _, ok⟩ := Checked.bind_eq_ok.1 ok
  cases ok
  exact readItems_forall (fun v mem _ _ => readOverride_valid (canonical v mem)) read

theorem readOverrides_toScript {overrides : List Override} (distinct : DistinctSubjects overrides)
    (valid : ∀ o ∈ overrides, o.Valid) (location : Location) :
    readOverrides location (overrides.map Override.toScript) = .ok overrides := by
  have read : readItems readOverride location 0 (overrides.map Override.toScript) = .ok overrides :=
    readItems_map (fun o mem => readOverride_toScript (valid o mem)) location 0
  unfold readOverrides
  rw [read, Checked.ok_bind, requireUnique_of_nodup distinct]
  rfl

theorem readChannel_valid {expected : Option ChannelKind} {location : Location} {v : Json}
    {c : Channel} (canonical : v.Canonical) (ok : readChannel expected location v = .ok c) :
    c.Valid := by
  have distinct := readChannel_distinct ok
  unfold readChannel at ok
  simp only [Checked.bind_eq_ok] at ok
  obtain ⟨r, taken, id, _, name, named, kind, _, vs, listed, overrides, read, inclusion, attached,
    _, checked, ok⟩ := ok
  cases ok
  obtain ⟨ascending, each⟩ := Record.canonical_of_ofJson canonical taken
  have valid := readOverrides_valid (Record.canonical_of_list each listed) read
  refine ⟨(Record.name_eq_ok.1 named).2, distinct, valid, Members.beside_without _ ascending,
    fun place => ?_, Record.lt_of_predicate attached⟩
  -- The options are checked in the record, and each of them is still there among the rest.
  have same : ∀ key ∉ channelFields,
      r.get? key = Record.get? ⟨place, r.rest channelFields⟩ key := fun key other =>
    Record.get?_eq_of_members (Members.get?_without.trans (if_neg other)).symm
  exact (checkOptions_alike same kind).of_ok checked

/-- A channel that was read is read from what a script gets of it, whether its kind is expected
or not. -/
theorem readChannel_toScript {c : Channel} (valid : c.Valid) {expected : Option ChannelKind}
    (agreed : expected = none ∨ expected = some c.kind) (location : Location) :
    readChannel expected location c.toScript = .ok c := by
  let r : Record := ⟨location, c.members⟩
  -- Each field is the member that was written for it, and no option hides one.
  have found : ∀ key, r.members.get? key = _ := valid.get?_members
  have id : r.snowflake "id" = .ok c.id := Record.snowflake_of_text (found "id")
  have name : r.name "name" = .ok c.name :=
    Record.name_eq_ok.2 ⟨Record.get?_of_members (found "name") rfl, valid.name⟩
  have kind : r.kind "type" expected ChannelKind.ofText? channelChoices = .ok c.kind :=
    Record.kind_of_text (found "type") (ChannelKind.ofText?_name c.kind) agreed
  have listed : r.list "overrides" = .ok (c.overrides.map Override.toScript) :=
    Record.list_of_arr (found "overrides")
  have overrides : readOverrides (r.place "overrides") (c.overrides.map Override.toScript) =
      .ok c.overrides := readOverrides_toScript valid.distinct valid.overrides _
  have inclusion : r.predicate "include" = .ok c.inclusion :=
    Record.predicate_of_marker (found "include") valid.inclusion
  have others : ∀ key ∉ channelFields, r.members.get? key = c.options.get? key := by
    intro key other
    have apart : key ≠ "include" := by
      rintro rfl
      exact other (by decide)
    rw [found, if_neg apart, if_neg other]
  have checked : checkOptions r c.kind = .ok () := by
    have same : ∀ key ∉ channelFields, Record.get? ⟨location, c.options⟩ key = r.get? key :=
      fun key other => Record.get?_eq_of_members (others key other).symm
    exact (checkOptions_alike same c.kind).of_ok (valid.admitted location)
  have rest : r.rest channelFields = c.options :=
    valid.options.without_eq c.ascending_members others
  have taken : Record.ofJson location c.toScript = .ok r := rfl
  unfold readChannel
  rw [taken]
  simp only [Checked.ok_bind, id, name, kind, listed, overrides, inclusion, checked, rest]
  rfl

end Schema

/-! ## Categories -/

/-- What a category satisfies that was read. -/
structure Category.Valid (c : Category) : Prop where
  name : Text.allBlank c.name = false
  distinct : c.Distinct
  channels : ∀ channel ∈ c.channels, channel.Valid
  overrides : ∀ o ∈ c.overrides, o.Valid
  inclusion : ∀ h ∈ c.inclusion, h.index < Nat.pow 2 64

namespace Category
variable {c : Category}

/-- The members of the written form, without the predicate's marker. -/
def named (c : Category) : Members :=
  c.fields (c.channels.map Channel.toScript) (c.overrides.map Override.toScript)

/-- The members of what a script gets. -/
def members (c : Category) : Members := (Members.ofList c.named).withInclusion c.inclusion

theorem get?_members (c : Category) (key : String) :
    c.members.get? key =
      if key = "include" then c.inclusion.map Handle.marker else c.named.get? key := by
  have distinct : c.named.keys.Nodup := by
    show ["id", "name", "channels", "overrides"].Nodup
    decide
  have found : ∀ key, (Members.ofList c.named).get? key = c.named.get? key :=
    fun _ => Members.get?_ofList distinct
  exact (Members.get?_withInclusion (found "include")).trans (by rw [found])

theorem get?_members_of_unknown (c : Category) {key : String} (other : key ∉ Schema.categoryFields) :
    c.members.get? key = none := by
  have known : c.named.keys ⊆ Schema.categoryFields := by
    show ["id", "name", "channels", "overrides"] ⊆ Schema.categoryFields
    decide
  have apart : key ≠ "include" := by
    rintro rfl
    exact other (by decide)
  rw [c.get?_members, if_neg apart]
  exact Members.get?_eq_none_iff.2 fun mem => other (known mem)

end Category

namespace Schema

theorem readCategory_valid {location : Location} {v : Json} {c : Category}
    (canonical : v.Canonical) (ok : readCategory location v = .ok c) : c.Valid := by
  have distinct := readCategory_distinct ok
  unfold readCategory at ok
  simp only [Checked.bind_eq_ok] at ok
  obtain ⟨r, taken, _, _, id, _, name, named, vs, listed, channels, read, _, _, _, _, ws, below,
    overrides, readBelow, inclusion, attached, ok⟩ := ok
  cases ok
  have each := (Record.canonical_of_ofJson canonical taken).2
  have items := Record.canonical_of_list each listed
  exact ⟨(Record.name_eq_ok.1 named).2, distinct,
    readItems_forall (fun v mem _ _ => readChannel_valid (items v mem)) read,
    readOverrides_valid (Record.canonical_of_list each below) readBelow,
    Record.lt_of_predicate attached⟩

/-- A category that was read is read from what a script gets of it. -/
theorem readCategory_toScript {c : Category} (valid : c.Valid) (location : Location) :
    readCategory location c.toScript = .ok c := by
  let r : Record := ⟨location, c.members⟩
  have found : ∀ key, r.members.get? key = _ := c.get?_members
  have known : r.rejectUnknown categoryFields = .ok () :=
    Record.rejectUnknown_of_get? fun _ other => c.get?_members_of_unknown other
  have id : r.snowflake "id" = .ok c.id := Record.snowflake_of_text (found "id")
  have name : r.name "name" = .ok c.name :=
    Record.name_eq_ok.2 ⟨Record.get?_of_members (found "name") rfl, valid.name⟩
  have listed : r.list "channels" = .ok (c.channels.map Channel.toScript) :=
    Record.list_of_arr (found "channels")
  have channels : readItems (readChannel none) (r.place "channels") 0
      (c.channels.map Channel.toScript) = .ok c.channels :=
    readItems_map (fun channel mem => readChannel_toScript (valid.channels channel mem) (.inl rfl))
      _ 0
  obtain ⟨other, unique⟩ := List.nodup_cons.1 valid.distinct.ids
  have below : r.list "overrides" = .ok (c.overrides.map Override.toScript) :=
    Record.list_of_arr (found "overrides")
  have overrides : readOverrides (r.place "overrides") (c.overrides.map Override.toScript) =
      .ok c.overrides := readOverrides_toScript valid.distinct.overrides valid.overrides _
  have inclusion : r.predicate "include" = .ok c.inclusion :=
    Record.predicate_of_marker (found "include") valid.inclusion
  have taken : Record.ofJson location c.toScript = .ok r := rfl
  unfold readCategory
  rw [taken]
  simp only [Checked.ok_bind, known, id, name, listed, channels, requireUnique_of_nodup unique,
    requireOtherIds_of_notMem other, below, overrides, inclusion]
  rfl

/-! ## What was read before -/

/-- What a reader makes of a value, it makes again of what a script gets of that, wherever it
stands; of a channel, whether its kind is expected or not. -/
theorem accepted_read_back {v : Json} (canonical : v.Canonical) :
    (∀ location role, readRole location v = .ok role →
      ∀ place, readRole place role.toScript = .ok role) ∧
    (∀ expected location c, readChannel expected location v = .ok c →
      ∀ expected', expected' = none ∨ expected' = some c.kind →
        ∀ place, readChannel expected' place c.toScript = .ok c) ∧
    ∀ location c, readCategory location v = .ok c →
      ∀ place, readCategory place c.toScript = .ok c := by
  refine ⟨fun _ _ ok place => ?_, fun _ _ _ ok _ agreed place => ?_, fun _ _ ok place => ?_⟩
  · exact readRole_toScript (readRole_valid ok) place
  · exact readChannel_toScript (readChannel_valid canonical ok) agreed place
  · exact readCategory_toScript (readCategory_valid canonical ok) place

/-- A channel with a predicate, an override that carries a further field, and options. -/
def loungeArgument : Json :=
  .obj [("id", .int 3), ("include", Handle.marker ⟨0⟩), ("name", .str "lounge"),
    ("nsfw", .bool true),
    ("overrides", .arr [.obj [("id", .str " +07"), ("note", .null),
      ("permissions", .obj [("SPEAK", .bool false)]), ("type", .str "role")]]),
    ("slowmode", .int 5), ("type", .str "text")]

/-- A category with that channel in it. -/
def upstairsArgument : Json :=
  .obj [("channels", .arr [loungeArgument]), ("id", .str "4"), ("include", Handle.marker ⟨1⟩),
    ("name", .str "upstairs"), ("overrides", .obj [])]

def ownerArgument : Json :=
  .obj [("color", .str "#00fF10"), ("id", .str "6"), ("name", .str "owner"),
    ("permissions", .int 2048)]

theorem loungeArgument_canonical : loungeArgument.Canonical := by
  have settings : (Json.obj [("SPEAK", .bool false)]).Canonical := by simp
  have override : (Json.obj [("id", .str " +07"), ("note", .null),
      ("permissions", .obj [("SPEAK", .bool false)]), ("type", .str "role")]).Canonical :=
    .obj (by decide) (by simp [settings])
  exact .obj (by decide) (by simp [override])

theorem upstairsArgument_canonical : upstairsArgument.Canonical :=
  .obj (by decide) (by simp [loungeArgument_canonical])

theorem ownerArgument_canonical : ownerArgument.Canonical := .obj (by decide) (by simp)

theorem accepted_read_back_upstairs :
    (∃ c, readCategory ⟨"category", []⟩ upstairsArgument = .ok c ∧
      ∀ place, readCategory place c.toScript = .ok c) ∧
    (∃ c, readChannel (some .text) ⟨"text", []⟩ loungeArgument = .ok c ∧
      ∀ place, readChannel none place c.toScript = .ok c) ∧
    ∃ role, readRole ⟨"role", []⟩ ownerArgument = .ok role ∧
      ∀ place, readRole place role.toScript = .ok role := by
  obtain ⟨category, categoryRead⟩ :
      ∃ c, readCategory ⟨"category", []⟩ upstairsArgument = .ok c := ⟨_, rfl⟩
  obtain ⟨channel, channelRead⟩ :
      ∃ c, readChannel (some .text) ⟨"text", []⟩ loungeArgument = .ok c := ⟨_, rfl⟩
  obtain ⟨role, roleRead⟩ : ∃ role, readRole ⟨"role", []⟩ ownerArgument = .ok role := ⟨_, rfl⟩
  refine ⟨⟨category, categoryRead, ?_⟩, ⟨channel, channelRead, ?_⟩, role, roleRead, ?_⟩
  · exact (accepted_read_back upstairsArgument_canonical).2.2 _ _ categoryRead
  · exact (accepted_read_back loungeArgument_canonical).2.1 _ _ _ channelRead none (.inl rfl)
  · exact (accepted_read_back ownerArgument_canonical).1 _ _ roleRead

end Schema

/-! ## What scripts pass -/

namespace Script
variable {h : Heap} {g : Registry}

theorem Becomes.canonical {v : Value} {j : Json} (becomes : Becomes h g v j) : j.Canonical := by
  induction becomes with
  | list _ _ _ ih =>
    refine .arr fun item mem => ?_
    obtain ⟨n, inside, rfl⟩ := List.getElem_of_mem mem
    exact ih n inside
  | record _ _ ascending _ _ _ _ _ ih => exact .obj ascending ih
  | _ => simp

/-- Every value that a script passes to a capability has its members in order. -/
theorem toJson_canonical {location : Location} {v : Value} {j : Json} {g' : Registry}
    (ok : toJson h location v g = .ok j g') : j.Canonical :=
  (toJson_becomes ok).canonical

end Script
end GuildPlan
