import GuildPlan.Proofs.Grammar
import GuildPlan.Proofs.Sample
import GuildPlan.Proofs.Uniqueness

/-
  The places that refusals name. Whatever is refused in a value, the steps of the place can be
  walked in that value, and where they end is what the refusal is about: a field that is not
  there, if one is required, and the spelling of the id, if two things would have the same.
-/
namespace GuildPlan

/-! ## Walks through a value -/

namespace Json

/-- The part of a value to which a step leads. -/
def part? : Json → Step → Option Json
  | .obj members, .field key => Members.get? members key
  | .arr items, .item index => items[index]?
  | _, _ => none

/-- The value to which some steps lead. -/
def at? (v : Json) : List Step → Option Json
  | [] => some v
  | step :: steps => (v.part? step).bind (at? · steps)

theorem at?_cons_of_part? {v w : Json} {step : Step} (found : v.part? step = some w)
    (steps : List Step) : v.at? (step :: steps) = w.at? steps := by
  rw [at?, found, Option.bind_some]

theorem at?_field {ms : Members} {key : String} {w : Json} (found : ms.get? key = some w) :
    (Json.obj ms).at? [.field key] = some w :=
  have found : (Json.obj ms).part? (.field key) = some w := found
  at?_cons_of_part? found []

/-- A record without a field: an object in which it is absent or null, or the empty list, which
counts as the empty object. -/
def Lacks (v : Json) (key : String) : Prop :=
  v = .arr [] ∨ ∃ ms : Members, v = .obj ms ∧ ms.Lacks key

end Json

theorem Location.under_under (l : Location) (first second : List Step) :
    (l.under first).under second = l.under (first ++ second) := by simp [under]

/-- The text of a place goes on with the texts of the steps from it. -/
theorem Location.text_under (l : Location) (steps : List Step) :
    (l.under steps).text = l.text ++ String.join (steps.map stepText) := by
  simp [text, under, String.append_assoc]

/-- The id that two things would have. -/
def Constraint.clash? : Constraint → Option Snowflake
  | .uniqueId id | .notCategoryId id | .unusedId id => some id
  | _ => none

/-- Whether a constraint is one on the value at the place alone: neither is there none, nor do
other ids matter. -/
def Constraint.plain : Constraint → Bool
  | .required _ | .uniqueId _ | .notCategoryId _ | .unusedId _ => false
  | _ => true

/-- A value has the place at which something is refused: up to a record that lacks the field which
is required, or else to a value, which spells the id if that is what clashes. -/
inductive Json.Shows (v : Json) : List Step → Constraint → Prop
  | missing {steps : List Step} {key expected : String} {w : Json} (there : v.at? steps = some w)
    (lacks : w.Lacks key) : Shows v (steps ++ [.field key]) (.required expected)
  | plain {steps : List Step} {c : Constraint} {w : Json} (there : v.at? steps = some w)
    (plain : c.plain = true) : Shows v steps c
  | clash {steps : List Step} {c : Constraint} {w : Json} {id : Snowflake}
    (there : v.at? steps = some w) (clash : c.clash? = some id) (spelled : id.Spelled w) :
    Shows v steps c

theorem Json.Shows.cons {v w : Json} {step : Step} {steps : List Step} {c : Constraint}
    (found : v.part? step = some w) (h : w.Shows steps c) : v.Shows (step :: steps) c := by
  have walk := at?_cons_of_part? found
  cases h with
  | missing there lacks => exact .missing ((walk _).trans there) lacks
  | plain there plain => exact .plain ((walk _).trans there) plain
  | clash there clash spelled => exact .clash ((walk _).trans there) clash spelled

/-- A refusal about a value at a place names a part of that place which the value has. -/
def Invalid.PointsInto (e : Invalid) (l : Location) (v : Json) : Prop :=
  ∃ steps, e.location = l.under steps ∧ v.Shows steps e.constraint

theorem Invalid.PointsInto.part {e : Invalid} {l : Location} {v w : Json} {step : Step}
    (found : v.part? step = some w) (h : e.PointsInto (l.under [step]) w) : e.PointsInto l v := by
  obtain ⟨steps, place, shows⟩ := h
  exact ⟨step :: steps, place.trans (l.under_under [step] steps), shows.cons found⟩

theorem Invalid.PointsInto.item {e : Invalid} {l : Location} {vs : List Json} {index : Nat}
    {w : Json} (found : vs[index]? = some w) (h : e.PointsInto (l.item index) w) :
    e.PointsInto l (.arr vs) :=
  have found : (Json.arr vs).part? (.item index) = some w := found
  .part found h

namespace Schema
variable {α β : Type}

/-! ## Checks and what they refuse -/

/-- All that a check refuses is refused in a certain way. -/
def Refuses (P : Invalid → Prop) (x : Checked α) : Prop := ∀ e, x = .error e → P e

namespace Refuses
variable {P Q : Invalid → Prop} {x : Checked α}

theorem ok (a : α) : Refuses P (.ok a : Checked α) := nofun

theorem reject {l : Location} {c : Constraint} (h : P ⟨l, c⟩) :
    Refuses P (Schema.reject l c : Checked α) := by
  rintro e ⟨⟩
  exact h

theorem imp (h : Refuses P x) (implies : ∀ e, P e → Q e) : Refuses Q x :=
  fun e failed => implies e (h e failed)

theorem bind {f : α → Checked β} (first : Refuses P x)
    (rest : ∀ a, x = .ok a → Refuses P (f a)) : Refuses P (x >>= f) := by
  cases x with
  | error e =>
    rintro e' ⟨⟩
    exact first e rfl
  | ok a => exact rest a rfl

theorem map (f : α → β) (h : Refuses P x) : Refuses P (x.map f) := by
  cases x with
  | error e =>
    rintro e' ⟨⟩
    exact h e rfl
  | ok a => exact ok (f a)

end Refuses

/-- All that a check refuses is a part of the value that it looks at. -/
abbrev Located (l : Location) (v : Json) (x : Checked α) : Prop := Refuses (·.PointsInto l v) x

/-- All that a check refuses is a part of one of the values that it looks at. -/
abbrev Among (l : Location) (vs : List Json) (x : Checked α) : Prop :=
  Refuses (fun e => ∃ index v, vs[index]? = some v ∧ e.PointsInto (l.item index) v) x

/-- The value itself is refused. -/
theorem Located.here {c : Constraint} (plain : c.plain = true) (l : Location) (v : Json) :
    Located l v (reject l c : Checked α) :=
  .reject ⟨[], l.under_nil.symm, .plain rfl plain⟩

/-! ## Records -/

namespace Record
variable {l : Location} {v w : Json} {r : Record} {key : String}

theorem located_ofJson (l : Location) (v : Json) : Located l v (ofJson l v) := by
  unfold ofJson
  split
  · exact .ok _
  · exact .ok _
  · exact Located.here rfl l v

theorem place_eq_under (taken : ofJson l v = .ok r) (key : String) :
    r.place key = l.under [.field key] := by
  unfold ofJson at taken
  split at taken
  · cases taken
    rfl
  · cases taken
    rfl
  · cases taken

theorem part?_of_members (taken : ofJson l v = .ok r) (found : r.members.get? key = some w) :
    v.part? (.field key) = some w := by
  rcases ofJson_eq_ok taken with rfl | empty
  · exact found
  · rw [empty] at found
    cases found

theorem lacks_of_get? (taken : ofJson l v = .ok r) (absent : r.get? key = none) :
    v.Lacks key := by
  have lacks := get?_eq_none.1 absent
  unfold ofJson at taken
  split at taken
  · cases taken
    exact .inr ⟨_, rfl, lacks⟩
  · exact .inl rfl
  · cases taken

/-- What is refused of a member is refused of the record. -/
theorem pointsInto_member (taken : ofJson l v = .ok r) (found : r.members.get? key = some w)
    {e : Invalid} (h : e.PointsInto (r.place key) w) : e.PointsInto l v :=
  .part (part?_of_members taken found) (place_eq_under taken key ▸ h)

theorem members_of_get? (found : r.get? key = some w) : r.members.get? key = some w :=
  (Option.filter_eq_some_iff.1 found).1

/-- A field that is there may be refused, as well as any part of it. -/
theorem located_field (taken : ofJson l v = .ok r) (found : r.get? key = some w) {x : Checked α}
    (h : Located (r.place key) w x) : Located l v x :=
  h.imp fun _ => pointsInto_member taken (members_of_get? found)

theorem located_refused (taken : ofJson l v = .ok r) (found : r.get? key = some w)
    {c : Constraint} (plain : c.plain = true) : Located l v (reject (r.place key) c : Checked α) :=
  located_field taken found (.here plain _ w)

/-- A field that is not there is refused if it is required. -/
theorem located_missing (taken : ofJson l v = .ok r) (absent : r.get? key = none)
    (expected : String) : Located l v (r.missing key expected : Checked α) := by
  have shows : v.Shows ([] ++ [.field key]) (.required expected) :=
    .missing rfl (lacks_of_get? taken absent)
  exact .reject ⟨_, place_eq_under taken key, shows⟩

theorem located_list_items (taken : ofJson l v = .ok r) {vs : List Json}
    (listed : r.list key = .ok vs) {x : Checked α} (h : Among (r.place key) vs x) :
    Located l v x := by
  refine h.imp ?_
  rintro e ⟨index, w, found, points⟩
  cases vs with
  | nil => cases found
  | cons first rest => exact pointsInto_member taken (get?_of_list listed) (.item found points)

/-! ### Each reader of a field -/

variable (taken : ofJson l v = .ok r)
include taken

theorem located_rejectUnknown (known : List String) : Located l v (r.rejectUnknown known) := by
  unfold rejectUnknown
  split
  · next key unknown =>
    obtain ⟨w, found⟩ := Option.ne_none_iff_exists'.1 fun absent =>
      Members.get?_eq_none_iff.1 absent (List.mem_of_find?_eq_some unknown)
    refine .reject (pointsInto_member taken found ?_)
    exact ⟨[], (Location.under_nil _).symm, .plain rfl rfl⟩
  · exact .ok _

omit taken in
theorem located_snowflakeAt (l : Location) (v : Json) : Located l v (snowflakeAt l v) := by
  unfold snowflakeAt
  split
  · exact .ok _
  · exact .here rfl l v

theorem located_snowflake (key : String) : Located l v (r.snowflake key) := by
  unfold snowflake
  split
  · next absent => exact located_missing taken absent _
  · next w found => exact located_field taken found (located_snowflakeAt _ w)

theorem located_optionalSnowflake (key : String) : Located l v (r.optionalSnowflake key) := by
  unfold optionalSnowflake
  split
  · exact .ok _
  · next w found => exact .map _ (located_field taken found (located_snowflakeAt _ w))

theorem located_name (key : String) : Located l v (r.name key) := by
  unfold name
  split
  · next absent => exact located_missing taken absent _
  · next found =>
    split
    · exact located_refused taken found rfl
    · exact .ok _
  · next found => exact located_refused taken found rfl

theorem located_optionalString (key : String) : Located l v (r.optionalString key) := by
  unfold optionalString
  split
  · exact .ok _
  · exact .ok _
  · next found => exact located_refused taken found rfl

theorem located_optionalBool (key : String) : Located l v (r.optionalBool key) := by
  unfold optionalBool
  split
  · exact .ok _
  · exact .ok _
  · next found => exact located_refused taken found rfl

theorem located_optionalUnsigned (key : String) : Located l v (r.optionalUnsigned key) := by
  unfold optionalUnsigned
  split
  · exact .ok _
  · next found =>
    split
    · exact .ok _
    · split <;> exact located_refused taken found rfl

theorem located_list (key : String) : Located l v (r.list key) := by
  unfold list
  split
  · exact .ok _
  · exact .ok _
  · exact .ok _
  · next found => exact located_refused taken found rfl

theorem located_predicate (key : String) : Located l v (r.predicate key) := by
  unfold predicate
  split
  · exact .ok _
  · next found =>
    split
    · exact .ok _
    · exact located_refused taken found rfl

theorem located_kind {κ : Type} [DecidableEq κ] (key : String) (expected : Option κ)
    (ofText? : String → Option κ) (choices : String) :
    Located l v (r.kind key expected ofText? choices) := by
  unfold kind
  split
  · next absent =>
    split
    · exact .ok _
    · exact located_missing taken absent _
  · next found =>
    split
    · exact located_refused taken found rfl
    · split
      · exact .ok _
      · exact located_refused taken found rfl
  · next found => exact located_refused taken found rfl

theorem located_bits : Located l v (readBits r) := by
  unfold readBits
  have known {w : Json} (found : r.get? "permissions" = some w) (n : Nat) :
      Located l v (requireKnownBits (r.place "permissions") n) := by
    unfold requireKnownBits
    dsimp only
    split
    · exact .ok _
    · exact located_refused taken found rfl
  dsimp only
  split
  · exact .ok _
  · next found =>
    split
    · exact known found _
    · exact located_refused taken found rfl
  · next found =>
    split
    · exact known found _
    · split <;> exact located_refused taken found rfl

theorem located_color : Located l v (readColor r) := by
  unfold readColor
  split
  · exact .ok _
  · next found =>
    split
    · exact .ok _
    · exact located_refused taken found rfl

omit taken in
/-- Of the members that are read here all are among those of the object. -/
theorem located_settings {l : Location} {members : Members} (rest : Members)
    (there : rest.keys ⊆ members.keys) : Located l (.obj members) (readSettings l rest) := by
  induction rest with
  | nil => exact .ok _
  | cons m rest ih =>
    obtain ⟨here, others⟩ := List.cons_subset.1 there
    unfold readSettings
    split
    · obtain ⟨w, found⟩ := Option.ne_none_iff_exists'.1 fun absent =>
        Members.get?_eq_none_iff.1 absent here
      exact .reject ⟨[.field m.1], rfl, .plain (Json.at?_field found) rfl⟩
    · exact .map _ (ih others)

theorem located_permissions : Located l v (readPermissions r) := by
  unfold readPermissions
  split
  · exact .ok _
  · exact .ok _
  · next members found =>
    exact .map _ (located_field taken found (located_settings members (List.Subset.refl _)))
  · next found => exact located_refused taken found rfl

end Record

/-! ## Lists -/

/-- What is refused among the items of a list is refused of one of them. -/
theorem among_readItems {read : Location → Json → Checked α} {l : Location}
    (each : ∀ l v, Located l v (read l v)) (before vs : List Json) :
    Refuses (fun e => ∃ index v, (before ++ vs)[index]? = some v ∧ e.PointsInto (l.item index) v)
      (readItems read l before.length vs) := by
  -- What has been read stays in front, since an item's place counts from the first one.
  induction vs generalizing before with
  | nil => exact .ok _
  | cons v vs ih =>
    unfold readItems
    refine .bind ((each _ v).imp fun e points => ⟨before.length, v, by simp, points⟩) fun x _ => ?_
    have others := ih (before ++ [v])
    rw [List.append_assoc, List.length_append] at others
    exact .bind others fun _ _ => .ok _

/-- A list of objects, and the ids that they spell. -/
abbrev SpellIds (vs : List Json) (ids : List Snowflake) : Prop :=
  List.Forall₂ (fun v id => ∃ ms : Members, v = .obj ms ∧ ms.SpellId id) vs ids

theorem SpellIds.of_readItems {read : Location → Json → Checked α} {id : α → Snowflake}
    (each : ∀ {l v x}, read l v = .ok x → ∃ ms : Members, v = .obj ms ∧ ms.SpellId (id x))
    {l : Location} {vs : List Json} {xs : List α} (ok : readItems read l 0 vs = .ok xs) :
    SpellIds vs (xs.map id) :=
  List.forall₂_map_right_iff.2 ((readItems_forall₂ ok).imp fun _ _ ⟨_, ok⟩ => each ok)

/-- An id of an item that two things would have is refused where that item spells it. -/
theorem SpellIds.among {vs : List Json} {ids : List Snowflake} (h : SpellIds vs ids) {index : Nat}
    {id : Snowflake} (there : ids[index]? = some id) {c : Constraint} (clash : c.clash? = some id)
    (l : Location) : Among l vs (reject ((l.item index).field "id") c : Checked α) := by
  obtain ⟨inside, rfl⟩ := List.getElem?_eq_some_iff.1 there
  have within : index < vs.length := h.length_eq ▸ inside
  obtain ⟨ms, whole, w, found, spelled⟩ := h.get within inside
  refine .reject ⟨index, .obj ms, ?_, [.field "id"], rfl, .clash ?_ clash spelled⟩
  · exact whole ▸ List.getElem?_eq_getElem within
  · exact Json.at?_field found

theorem getElem?_of_firstRepeat {seen ids : List Snowflake} {start n : Nat} {id : Snowflake}
    (found : firstRepeat seen start ids = some (n, id)) :
    ∃ index, n = start + index ∧ ids[index]? = some id := by
  induction ids generalizing seen start with
  | nil => cases found
  | cons first ids ih =>
    unfold firstRepeat at found
    split at found
    · cases found
      exact ⟨0, rfl, rfl⟩
    · obtain ⟨index, rfl, there⟩ := ih found
      exact ⟨index + 1, by omega, there⟩

theorem SpellIds.requireUnique {vs : List Json} {ids : List Snowflake} (h : SpellIds vs ids)
    (l : Location) : Among l vs (requireUnique l ids) := by
  unfold Schema.requireUnique
  split
  · next n id found =>
    obtain ⟨index, rfl, there⟩ := getElem?_of_firstRepeat found
    rw [Nat.zero_add]
    exact h.among there rfl l
  · exact .ok _

theorem SpellIds.requireOtherIds {vs : List Json} {ids : List Snowflake} (h : SpellIds vs ids)
    (l : Location) (id : Snowflake) : Among l vs (requireOtherIds l id ids) := by
  unfold Schema.requireOtherIds
  split
  · next index found =>
    obtain ⟨inside, same, -⟩ := List.findIdx?_eq_some_iff_getElem.1 found
    exact h.among (List.getElem?_eq_some_iff.2 ⟨inside, of_decide_eq_true same⟩) rfl l
  · exact .ok _

/-! ## Entities -/

theorem located_readOverride (l : Location) (v : Json) : Located l v (readOverride l v) := by
  unfold readOverride
  refine .bind (Record.located_ofJson l v) fun r taken => ?_
  refine .bind (Record.located_snowflake taken "id") fun _ _ => ?_
  refine .bind (Record.located_kind taken "type" _ _ _) fun _ _ => ?_
  exact .bind (Record.located_permissions taken) fun _ _ => .ok _

theorem spellId_of_readOverride {l : Location} {v : Json} {o : Override}
    (ok : readOverride l v = .ok o) : ∃ ms : Members, v = .obj ms ∧ ms.SpellId o.id := by
  unfold readOverride at ok
  simp only [Checked.bind_eq_ok] at ok
  obtain ⟨r, taken, id, identified, _, _, _, _, ok⟩ := ok
  cases ok
  exact ⟨_, (Record.eq_obj taken identified).1, Record.spellId_of_snowflake identified⟩

theorem among_readOverrides (l : Location) (vs : List Json) : Among l vs (readOverrides l vs) := by
  unfold readOverrides
  refine .bind (among_readItems located_readOverride [] vs) fun overrides read => ?_
  have spelled := SpellIds.of_readItems spellId_of_readOverride read
  exact .bind (spelled.requireUnique l) fun _ _ => .ok _

theorem located_checkOptions {l : Location} {v : Json} {r : Record}
    (taken : Record.ofJson l v = .ok r) (kind : ChannelKind) :
    Located l v (checkOptions r kind) := by
  cases kind with
  | text =>
    refine .bind (Record.located_optionalString taken "topic") fun _ _ => ?_
    refine .bind (Record.located_optionalBool taken "nsfw") fun _ _ => ?_
    exact .bind (Record.located_optionalUnsigned taken "slowmode") fun _ _ => .ok _
  | voice =>
    refine .bind (Record.located_optionalUnsigned taken "bitrate") fun _ _ => ?_
    exact .bind (Record.located_optionalUnsigned taken "user_limit") fun _ _ => .ok _

theorem located_readChannel (expected : Option ChannelKind) (l : Location) (v : Json) :
    Located l v (readChannel expected l v) := by
  unfold readChannel
  refine .bind (Record.located_ofJson l v) fun r taken => ?_
  refine .bind (Record.located_snowflake taken "id") fun _ _ => ?_
  refine .bind (Record.located_name taken "name") fun _ _ => ?_
  refine .bind (Record.located_kind taken "type" _ _ _) fun kind _ => ?_
  refine .bind (Record.located_list taken "overrides") fun vs listed => ?_
  refine .bind (Record.located_list_items taken listed (among_readOverrides _ vs)) fun _ _ => ?_
  refine .bind (Record.located_predicate taken "include") fun _ _ => ?_
  exact .bind (located_checkOptions taken kind) fun _ _ => .ok _

theorem located_readCategory (l : Location) (v : Json) : Located l v (readCategory l v) := by
  unfold readCategory
  refine .bind (Record.located_ofJson l v) fun r taken => ?_
  refine .bind (Record.located_rejectUnknown taken _) fun _ _ => ?_
  refine .bind (Record.located_snowflake taken "id") fun id _ => ?_
  refine .bind (Record.located_name taken "name") fun _ _ => ?_
  refine .bind (Record.located_list taken "channels") fun vs listed => ?_
  refine .bind (Record.located_list_items taken listed
    (among_readItems (located_readChannel none) [] vs)) fun channels read => ?_
  have spelled := SpellIds.of_readItems spellId_of_readChannel read
  refine .bind (Record.located_list_items taken listed (spelled.requireUnique _)) fun _ _ => ?_
  refine .bind (Record.located_list_items taken listed (spelled.requireOtherIds _ id)) fun _ _ => ?_
  refine .bind (Record.located_list taken "overrides") fun ws below => ?_
  refine .bind (Record.located_list_items taken below (among_readOverrides _ ws)) fun _ _ => ?_
  exact .bind (Record.located_predicate taken "include") fun _ _ => .ok _

theorem located_readRole (l : Location) (v : Json) : Located l v (readRole l v) := by
  unfold readRole
  refine .bind (Record.located_ofJson l v) fun r taken => ?_
  refine .bind (Record.located_rejectUnknown taken _) fun _ _ => ?_
  refine .bind (Record.located_snowflake taken "id") fun _ _ => ?_
  refine .bind (Record.located_name taken "name") fun _ _ => ?_
  refine .bind (Record.located_bits taken) fun _ _ => ?_
  refine .bind (Record.located_color taken) fun _ _ => ?_
  refine .bind (Record.located_optionalBool taken "hoist") fun _ _ => ?_
  exact .bind (Record.located_optionalBool taken "mentionable") fun _ _ => .ok _

theorem located_readChannelBuilder (l : Location) (v : Json) (kind : ChannelKind) :
    Located l v (readChannelBuilder l v kind) := by
  unfold readChannelBuilder
  refine .bind (Record.located_ofJson l v) fun r taken => ?_
  refine .bind (Record.located_kind taken "type" _ _ _) fun _ _ => ?_
  exact .bind (Record.located_optionalSnowflake taken "id") fun _ _ => .ok _

theorem located_readOverrideBuilder (l : Location) (v : Json) (kind : SubjectKind) :
    Located l v (readOverrideBuilder l v kind) := by
  unfold readOverrideBuilder
  refine .bind (Record.located_ofJson l v) fun r taken => ?_
  refine .bind (Record.located_kind taken "type" _ _ _) fun _ _ => ?_
  exact .bind (Record.located_snowflake taken "id") fun _ _ => .ok _

end Schema

/-- Whatever a capability refuses of an argument is a part of that argument. -/
theorem Capability.located_read (c : Capability) (v : Json) :
    Schema.Located c.location v (c.read v) := by
  cases c with
  | globalChannel kind => exact .map _ (Schema.located_readChannel _ _ v)
  | globalRole => exact .map _ (Schema.located_readRole _ v)
  | channel kind => exact .map _ (Schema.located_readChannelBuilder _ v kind)
  | override kind => exact .map _ (Schema.located_readOverrideBuilder _ v kind)
  | category => exact .map _ (Schema.located_readCategory _ v)

/-! ## Texts of places -/

/-- What a reader refuses in a value that stands at a place. -/
inductive Schema.Refused (l : Location) : Json → Invalid → Prop
  | role {v : Json} {e : Invalid} (failed : readRole l v = .error e) : Refused l v e
  | channel {v : Json} {e : Invalid} {expected : Option ChannelKind}
    (failed : readChannel expected l v = .error e) : Refused l v e
  | category {v : Json} {e : Invalid} (failed : readCategory l v = .error e) : Refused l v e
  | overrides {vs : List Json} {e : Invalid} (failed : readOverrides l vs = .error e) :
    Refused l (.arr vs) e
  | channelBuilder {v : Json} {e : Invalid} {kind : ChannelKind}
    (failed : readChannelBuilder l v kind = .error e) : Refused l v e
  | overrideBuilder {v : Json} {e : Invalid} {kind : SubjectKind}
    (failed : readOverrideBuilder l v kind = .error e) : Refused l v e

theorem Schema.Refused.pointsInto {l : Location} {v : Json} {e : Invalid}
    (refused : Refused l v e) : e.PointsInto l v := by
  cases refused with
  | role failed => exact located_readRole l v e failed
  | channel failed => exact located_readChannel _ l v e failed
  | category failed => exact located_readCategory l v e failed
  | overrides failed =>
    obtain ⟨index, w, found, points⟩ := among_readOverrides l _ e failed
    exact points.item found
  | channelBuilder failed => exact located_readChannelBuilder l v _ e failed
  | overrideBuilder failed => exact located_readOverrideBuilder l v _ e failed

theorem Constraint.not_required_of_plain {c : Constraint} (plain : c.plain = true)
    (expected : String) : c ≠ .required expected := by
  rintro rfl
  cases plain

theorem Constraint.not_required_of_clash {c : Constraint} {id : Snowflake}
    (clash : c.clash? = some id) (expected : String) : c ≠ .required expected := by
  rintro rfl
  cases clash

/-- The text of the place that a refusal names is the text of the place where the value stands,
followed by the texts of steps that can be walked in the value: all of them, or, if a field is
required that is missing, all but the last, up to a record that lacks the field. -/
theorem refusal_walks {l : Location} {v : Json} {e : Invalid} (refused : Schema.Refused l v e) :
    ∃ steps, e.location.text = l.text ++ String.join (steps.map Location.stepText) ∧
      (((∀ expected, e.constraint ≠ .required expected) ∧ ∃ w, v.at? steps = some w) ∨
        ∃ before key expected w, steps = before ++ [.field key] ∧
          e.constraint = .required expected ∧ v.at? before = some w ∧ w.Lacks key) := by
  obtain ⟨place, constraint⟩ := e
  obtain ⟨steps, rfl, shows⟩ := refused.pointsInto
  refine ⟨steps, l.text_under steps, ?_⟩
  cases shows with
  | missing there lacks => exact .inr ⟨_, _, _, _, rfl, rfl, there, lacks⟩
  | plain there plain => exact .inl ⟨Constraint.not_required_of_plain plain, _, there⟩
  | clash there clash => exact .inl ⟨Constraint.not_required_of_clash clash, _, there⟩

namespace Sample

/-- A category with a channel that overrides something, the kind of which is null. -/
def kindlessArgument : Json :=
  .obj [("channels", .arr [.obj [("id", .str "3"), ("name", .str "lounge"),
      ("overrides", .arr [.obj [("id", .str "7"), ("type", .null)]]), ("type", .str "text")]]),
    ("id", .str "4"), ("name", .str "upstairs")]

theorem refusal_walks_kindless : ∃ e, Schema.Refused ⟨"category", []⟩ kindlessArgument e ∧
    e.location.text = "category.channels[0].overrides[0].type" ∧
    ∃ steps, e.location.text = "category" ++ String.join (steps.map Location.stepText) ∧
      (((∀ expected, e.constraint ≠ .required expected) ∧
          ∃ w, kindlessArgument.at? steps = some w) ∨
        ∃ before key expected w, steps = before ++ [.field key] ∧
          e.constraint = .required expected ∧ kindlessArgument.at? before = some w ∧
          w.Lacks key) := by
  let e : Invalid := ⟨⟨"category", [.field "channels", .item 0, .field "overrides", .item 0,
    .field "type"]⟩, .required Schema.subjectChoices⟩
  have refused : Schema.Refused ⟨"category", []⟩ kindlessArgument e := .category rfl
  exact ⟨e, refused, by decide +kernel, refusal_walks refused⟩

end Sample

end GuildPlan
