import GuildPlan.Proofs.Fields

/-
  Builders and plain declarations. A builder checks the kind and the id of what it is given and
  passes on the rest, so what it gives is read as the plain value is where its kind is known:
  with the same result, or with a refusal of the same field for the same reason. For reading
  looks at the id and the kind, which the builder has agreed with, and at other fields, which
  the builder has left as they are.
-/
namespace GuildPlan

/-- An object with one member put in its place; what is no object stays as it is. -/
def Json.withMember (v : Json) (key : String) (value : Json) : Json :=
  match v with
  | .obj members => .obj (insertEntry key value members)
  | v => v

namespace Schema

/-- The fields that a builder looks at. -/
def builderFields : List String := ["type", "id"]

/-! ## Alike records -/

/-- Records at one place that agree on every field other than the id and the kind. -/
structure SameOthers (r r' : Record) : Prop where
  location : r.location = r'.location
  ascending : Ascending r.members
  ascending' : Ascending r'.members
  get? : ∀ key ∉ builderFields, r.members.get? key = r'.members.get? key

namespace SameOthers
variable {r r' : Record} {α : Type}

theorem read (h : SameOthers r r') {key : String} {read : Record → Checked α}
    (reads : Reads key read) (other : key ∉ builderFields) : read r = read r' :=
  reads.congr h.location (Record.get?_eq_of_members (h.get? key other))

theorem symm (h : SameOthers r r') : SameOthers r' r :=
  ⟨h.location.symm, h.ascending', h.ascending, fun key other => (h.get? key other).symm⟩

theorem trans {r'' : Record} (h : SameOthers r r') (h' : SameOthers r' r'') : SameOthers r r'' :=
  ⟨h.location.trans h'.location, h.ascending, h'.ascending', fun key other =>
    (h.get? key other).trans (h'.get? key other)⟩

/-- They agree on the further fields, where id and kind are not among these. -/
theorem rest (h : SameOthers r r') {known : List String} (named : builderFields ⊆ known) :
    r.rest known = r'.rest known := by
  refine Members.ext_get? (Members.ascending_without known h.ascending)
    (Members.ascending_without known h.ascending') fun key => ?_
  unfold Record.rest
  rw [Members.get?_without, Members.get?_without]
  split
  · rfl
  · next other => exact h.get? key fun mem => other (named mem)

end SameOthers

/-- A channel is read by its id, its kind and its other fields. -/
theorem readChannel_congr {l : Location} {v v' : Json} {r r' : Record}
    {expected expected' : Option ChannelKind} (taken : Record.ofJson l v = .ok r)
    (taken' : Record.ofJson l v' = .ok r') (same : SameOthers r r')
    (id : r.snowflake "id" = r'.snowflake "id")
    (kind : r.kind "type" expected ChannelKind.ofText? channelChoices =
      r'.kind "type" expected' ChannelKind.ofText? channelChoices) :
    readChannel expected l v = readChannel expected' l v' := by
  have name := same.read (Record.reads_name "name") (by decide)
  have overrides := same.read (Record.reads_list "overrides") (by decide)
  have place : r.place "overrides" = r'.place "overrides" :=
    congrArg (Location.field · _) same.location
  have inclusion := same.read (Record.reads_predicate "include") (by decide)
  have options : checkOptions r = checkOptions r' := by
    funext kind
    have named : builderFields ⊆ channelFields := by decide
    have others : ∀ key ∉ channelFields, r.get? key = r'.get? key := fun key other =>
      Record.get?_eq_of_members (same.get? key fun mem => other (named mem))
    have alike := checkOptions_alike others kind
    rw [same.location] at alike
    exact alike.eq
  have rest : r.rest channelFields = r'.rest channelFields := same.rest (by decide)
  unfold readChannel
  rw [taken, taken']
  simp only [Checked.ok_bind, id, name, kind, overrides, place, inclusion, options, rest]

/-- An override is read by its id, its kind and its other fields. -/
theorem readOverride_congr {l : Location} {v v' : Json} {r r' : Record}
    (taken : Record.ofJson l v = .ok r) (taken' : Record.ofJson l v' = .ok r')
    (same : SameOthers r r') (id : r.snowflake "id" = r'.snowflake "id")
    (kind : r.kind "type" none SubjectKind.ofText? subjectChoices =
      r'.kind "type" none SubjectKind.ofText? subjectChoices) :
    readOverride l v = readOverride l v' := by
  have permissions := same.read reads_permissions (by decide)
  have known : builderFields ⊆ ["id", "type", "permissions"] := by decide
  have rest := same.rest known
  unfold readOverride
  rw [taken, taken']
  simp only [Checked.ok_bind, id, kind, permissions, rest]

/-! ## What builders give -/

namespace OpenEntity
variable {e : OpenEntity} {key : String}

/-- The members that were checked. -/
def checked (e : OpenEntity) : Members :=
  ("type", .str e.kind) :: (e.id.map fun id => ("id", Json.str id.text)).toList

theorem keys_checked (e : OpenEntity) :
    e.checked.keys.Nodup ∧ e.checked.keys ⊆ builderFields := by
  unfold checked
  cases e.id with
  | none =>
    show ["type"].Nodup ∧ ["type"] ⊆ builderFields
    decide
  | some id =>
    show ["type", "id"].Nodup ∧ ["type", "id"] ⊆ builderFields
    decide

theorem get?_ofList_fields (beside : Members.Beside builderFields e.extra) :
    (Members.ofList e.fields).get? key =
      if key ∈ builderFields then e.checked.get? key else e.extra.get? key :=
  beside.get?_ofList e.keys_checked.1 e.keys_checked.2

theorem get?_type (beside : Members.Beside builderFields e.extra) :
    (Members.ofList e.fields).get? "type" = some (.str e.kind) := by
  rw [get?_ofList_fields beside]
  rfl

theorem get?_id (beside : Members.Beside builderFields e.extra) :
    (Members.ofList e.fields).get? "id" = e.id.map (Json.str ·.text) := by
  rw [get?_ofList_fields beside]
  unfold checked
  cases e.id <;> rfl

/-- What is left of a record goes on beside the kind and the id as it is. -/
theorem sameOthers {l : Location} {ms : Members} (ascending : Ascending ms)
    (rest : e.extra = ms.without builderFields) :
    SameOthers ⟨l, Members.ofList e.fields⟩ ⟨l, ms⟩ where
  location := rfl
  ascending := Members.ascending_ofList _
  ascending' := ascending
  get? key other := by
    have beside : Members.Beside builderFields e.extra :=
      rest ▸ Members.beside_without builderFields ascending
    show (Members.ofList e.fields).get? key = ms.get? key
    rw [get?_ofList_fields beside, if_neg other, rest]
    exact Members.get?_without.trans (if_neg other)

end OpenEntity

/-! ## Builders -/

theorem readChannel_of_builder {p : Location} {v : Json} {kind : ChannelKind} {e : OpenEntity}
    (canonical : v.Canonical) (ok : readChannelBuilder p v kind = .ok e) (q : Location) :
    readChannel none q e.toScript = readChannel (some kind) q v := by
  unfold readChannelBuilder at ok
  simp only [Checked.bind_eq_ok] at ok
  obtain ⟨r, taken, given, named, id, identified, ok⟩ := ok
  cases Record.kind_of_expected named
  have ascending := (Record.canonical_of_ofJson canonical taken).1
  have beside := Members.beside_without builderFields ascending
  obtain rfl : e = ⟨kind.name, id, r.rest builderFields⟩ := (Except.ok.inj ok).symm
  refine readChannel_congr rfl (Record.ofJson_elsewhere taken q)
    (OpenEntity.sameOthers ascending rfl) ?_ ?_
  · -- Without an id both are refused; an id that the builder read is written in decimal.
    rcases Record.optionalSnowflake_eq_ok identified with ⟨rfl, absent⟩ | ⟨i, rfl, read⟩
    · have absent' := OpenEntity.get?_id (e := ⟨kind.name, none, r.rest builderFields⟩) beside
      refine (Record.reads_snowflake "id").congr rfl (Eq.trans ?_ absent.symm)
      exact congrArg (Option.filter _) absent'
    · refine Eq.trans ?_ ((Record.reads_snowflake "id").elsewhere read q).symm
      exact Record.snowflake_of_text (OpenEntity.get?_id beside)
  · refine Eq.trans ?_ ((Record.reads_kind "type" _ _ _).elsewhere named q).symm
    exact Record.kind_of_text (OpenEntity.get?_type beside) (ChannelKind.ofText?_name kind)
      (.inl rfl)

theorem readOverride_of_builder {p : Location} {v : Json} {kind : SubjectKind} {e : OpenEntity}
    (canonical : v.Canonical) (ok : readOverrideBuilder p v kind = .ok e) (q : Location) :
    readOverride q e.toScript = readOverride q (v.withMember "type" (.str kind.text)) := by
  unfold readOverrideBuilder at ok
  simp only [Checked.bind_eq_ok] at ok
  obtain ⟨r, taken, given, named, id, identified, ok⟩ := ok
  cases Record.kind_of_expected named
  obtain ⟨rfl, _⟩ := Record.eq_obj taken identified
  have ascending := (Record.canonical_of_ofJson canonical taken).1
  have beside := Members.beside_without builderFields ascending
  obtain rfl : e = ⟨kind.text, some id, r.rest builderFields⟩ := (Except.ok.inj ok).symm
  let placed := insertEntry "type" (Json.str kind.text) r.members
  have found : Members.get? placed "type" = some (.str kind.text) :=
    (lookup_insertEntry _ _ _ _).trans (if_pos rfl)
  have others : ∀ key ≠ "type", Members.get? placed key = r.members.get? key :=
    fun key other => (lookup_insertEntry _ _ _ _).trans (if_neg other)
  have same : SameOthers ⟨q, placed⟩ ⟨q, r.members⟩ :=
    ⟨rfl, ascending_insertEntry _ _ ascending, ascending, fun key other =>
      others key fun type => other (type ▸ List.mem_cons_self)⟩
  refine readOverride_congr rfl rfl ((OpenEntity.sameOthers ascending rfl).trans same.symm) ?_ ?_
  · have read := (Record.reads_snowflake "id").elsewhere identified q
    refine (Record.snowflake_of_text (OpenEntity.get?_id beside)).trans (read.symm.trans ?_)
    refine (Record.reads_snowflake "id").congr rfl (Record.get?_eq_of_members ?_)
    exact (others "id" (by decide)).symm
  · have agreed := SubjectKind.ofText?_text kind
    refine Eq.trans ?_ (Record.kind_of_text (r := ⟨q, placed⟩) found agreed (.inl rfl)).symm
    exact Record.kind_of_text (OpenEntity.get?_type beside) agreed (.inl rfl)

/-- What a builder gives is read as the value that the builder took, with the builder's kind for
its own. -/
theorem builders_transparent {v : Json} (canonical : v.Canonical) :
    (∀ p q kind e, readChannelBuilder p v kind = .ok e →
      readChannel none q e.toScript = readChannel (some kind) q v) ∧
    ∀ p q kind e, readOverrideBuilder p v kind = .ok e →
      readOverride q e.toScript = readOverride q (v.withMember "type" (.str kind.text)) :=
  ⟨fun _ q _ _ ok => readChannel_of_builder canonical ok q,
    fun _ q _ _ ok => readOverride_of_builder canonical ok q⟩

/-- What both builders take: an id, no kind, and further fields. -/
def boothArgument : Json :=
  .obj [("id", .str "+05"), ("name", .str "booth"), ("permissions", .obj [("SPEAK", .bool true)]),
    ("type", .null), ("user_limit", .int 4)]

theorem boothArgument_canonical : boothArgument.Canonical := by
  have settings : (Json.obj [("SPEAK", .bool true)]).Canonical := by simp
  exact .obj (by decide) (by simp [settings])

theorem builders_transparent_booth :
    (∃ e c, readChannelBuilder ⟨"voice", []⟩ boothArgument .voice = .ok e ∧
      readChannel (some .voice) ⟨"channels", []⟩ boothArgument = .ok c ∧
      readChannel none ⟨"channels", []⟩ e.toScript = .ok c) ∧
    ∃ e o, readOverrideBuilder ⟨"role", []⟩ boothArgument .role = .ok e ∧
      readOverride ⟨"overrides", []⟩ (boothArgument.withMember "type" (.str "role")) = .ok o ∧
      readOverride ⟨"overrides", []⟩ e.toScript = .ok o := by
  obtain ⟨channels, overrides⟩ := builders_transparent boothArgument_canonical
  obtain ⟨e, built⟩ : ∃ e, readChannelBuilder ⟨"voice", []⟩ boothArgument .voice = .ok e := ⟨_, rfl⟩
  obtain ⟨c, plain⟩ :
      ∃ c, readChannel (some .voice) ⟨"channels", []⟩ boothArgument = .ok c := ⟨_, rfl⟩
  obtain ⟨e', built'⟩ :
      ∃ e, readOverrideBuilder ⟨"role", []⟩ boothArgument .role = .ok e := ⟨_, rfl⟩
  obtain ⟨o, plain'⟩ : ∃ o, readOverride ⟨"overrides", []⟩
      (boothArgument.withMember "type" (.str "role")) = .ok o := ⟨_, rfl⟩
  exact ⟨⟨e, c, built, plain, (channels _ _ _ _ built).trans plain⟩,
    e', o, built', plain', (overrides _ _ _ _ built').trans plain'⟩

end Schema
end GuildPlan
