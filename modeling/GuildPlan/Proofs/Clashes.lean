import GuildPlan.Proofs.Places
import GuildPlan.Proofs.Sample

/-
  Ids that clash, and the places that are named for them. A check of one argument names the
  field that spells the id. The check against what has been declared before names the id of the
  argument itself, although the id that is taken may be that of a channel in a category.
-/
namespace GuildPlan

theorem Constraint.plain_of_clash {c : Constraint} {id : Snowflake} (clash : c.clash? = some id) :
    c.plain = false := by
  cases c with
  | uniqueId | notCategoryId | unusedId => rfl
  | _ => cases clash

/-- Where ids clash, a value shows the id in question. -/
theorem Json.Shows.spelled {v : Json} {steps : List Step} {c : Constraint} {id : Snowflake}
    (h : v.Shows steps c) (clash : c.clash? = some id) :
    ∃ w, v.at? steps = some w ∧ id.Spelled w := by
  cases h with
  | missing => cases clash
  | plain there plain => exact absurd plain (by simp [Constraint.plain_of_clash clash])
  | clash there clash' spelled =>
    cases clash'.symm.trans clash
    exact ⟨_, there, spelled⟩

namespace Capability
variable {c : Capability} {v : Json} {entity : Entity}

/-- What is recorded has an id of its own, which the argument spells. -/
theorem own_of_read (ok : c.read v = .ok entity) (records : c.records = true) :
    ∃ (ms : Members) (own : Snowflake) (nested : List Snowflake),
      v = .obj ms ∧ ms.SpellId own ∧ entity.ids = own :: nested := by
  cases c with
  | globalChannel kind =>
    obtain ⟨channel, read, rfl⟩ := Schema.Checked.map_eq_ok ok
    obtain ⟨ms, whole, spelled⟩ := Schema.spellId_of_readChannel read
    exact ⟨ms, _, [], whole, spelled, rfl⟩
  | globalRole =>
    obtain ⟨role, read, rfl⟩ := Schema.Checked.map_eq_ok ok
    obtain ⟨ms, whole, spelled⟩ := Schema.spellId_of_readRole read
    exact ⟨ms, _, [], whole, spelled, rfl⟩
  | category =>
    obtain ⟨category, read, rfl⟩ := Schema.Checked.map_eq_ok ok
    obtain ⟨ms, whole, spelled, _⟩ := Schema.ids_of_readCategory read
    exact ⟨ms, _, _, whole, spelled, rfl⟩
  | channel kind => cases records
  | override kind => cases records

/-- What a call is refused for: something in its argument, that the context is closed, or the
first of its ids that is taken. -/
theorem declare_eq_error {context : Context} {e : Invalid}
    (refused : c.declare context v = .error e) :
    c.read v = .error e ∨ (context = none ∧ e = ⟨c.location, .openContext⟩) ∨
    ∃ entity s id, c.read v = .ok entity ∧ c.records = true ∧ context = some s ∧
      entity.ids.find? ((s.taken c).contains ·) = some id ∧
      e = ⟨c.location.field "id", .unusedId id⟩ := by
  cases read : c.read v with
  | error e' =>
    unfold declare at refused
    rw [read] at refused
    exact .inl (congrArg Except.error (Except.error.inj refused))
  | ok entity =>
    cases records : c.records with
    | false =>
      unfold declare at refused
      rw [read, records] at refused
      cases refused
    | true =>
      cases context with
      | none =>
        unfold declare at refused
        rw [read, records] at refused
        exact .inr (.inl ⟨rfl, (Except.error.inj refused).symm⟩)
      | some s =>
        rw [c.declare_of_read s read records] at refused
        obtain ⟨free, used⟩ := s.record_of_read c.location read records
        unfold requireUnused at free used
        split at free
        · next id found =>
          rw [found] at used
          rw [used _ rfl] at refused
          cases refused
          exact .inr (.inr ⟨entity, s, id, rfl, rfl, rfl, found, rfl⟩)
        · obtain ⟨s', recorded⟩ := free rfl
          rw [recorded] at refused
          cases refused

/-- A category is valid and has an id that is free, and the id in question is that of a channel
in it. -/
structure NestedClash (c : Capability) (context : Context) (v : Json) (id : Snowflake) : Prop where
  category : c = .category
  valid : ∃ s category, context = some s ∧ Schema.readCategory c.location v = .ok category ∧
    category.id ∉ s.channelIds
  nested : ∃ index w, v.at? [.field "channels", .item index, .field "id"] = some w ∧ id.Spelled w

/-- An id that a category names besides its own is that of a channel in it. -/
theorem Names.nested_of_ne {ms : Members} {own id : Snowflake} (names : c.Names (.obj ms) id)
    (spelled : ms.SpellId own) (other : own ≠ id) : c = .category ∧
      ∃ index w, (Json.obj ms).at? [.field "channels", .item index, .field "id"] = some w ∧
        id.Spelled w := by
  cases names with
  | own spelled' => exact absurd (spelled.unique spelled') other
  | @nested _ inner items _ listed mem spelled' =>
    obtain ⟨index, found⟩ := List.getElem?_of_mem mem
    obtain ⟨w, there, spelled'⟩ := spelled'
    have list : (Json.obj ms).part? (.field "channels") = some (.arr items) := listed
    have item : (Json.arr items).part? (.item index) = some (.obj inner) := found
    refine ⟨rfl, index, w, ?_, spelled'⟩
    rw [Json.at?_cons_of_part? list, Json.at?_cons_of_part? item]
    exact Json.at?_field there

/-- An id that clashes in the argument itself is found where the refusal says. -/
theorem clash_of_read {e : Invalid} {id : Snowflake} (failed : c.read v = .error e)
    (clash : e.constraint.clash? = some id) :
    e.location.root = c.name ∧ ∃ w, v.at? e.location.steps = some w ∧ id.Spelled w := by
  obtain ⟨steps, place, shows⟩ := c.located_read v e failed
  rw [place]
  exact ⟨rfl, shows.spelled clash⟩

/-- If the first id that is taken is not the argument's own, it is that of a channel. -/
theorem nestedClash_iff {s : Setup} {ms : Members} {own id : Snowflake}
    (read : c.read (.obj ms) = .ok entity) (records : c.records = true) (spelled : ms.SpellId own)
    (found : entity.ids.find? ((s.taken c).contains ·) = some id) :
    own ≠ id ↔ c.NestedClash (some s) (.obj ms) id := by
  obtain ⟨_, own', nested, ⟨⟩, spelled', ids⟩ := c.own_of_read read records
  cases spelled'.unique spelled
  have used : id ∈ s.taken c := List.contains_iff_mem.1 (List.find?_some found)
  have names := (c.mem_ids_iff read records id).1 (List.mem_of_find?_eq_some found)
  -- The own id is looked at first, so that it is reported whenever it is taken.
  have ownFirst : own ∈ s.taken c → own = id := by
    intro ownUsed
    rw [ids, List.find?_cons_of_pos (List.contains_iff_mem.2 ownUsed)] at found
    exact Option.some.inj found
  constructor
  · intro other
    obtain ⟨rfl, place⟩ := names.nested_of_ne spelled other
    obtain ⟨category, valid, rfl⟩ := Schema.Checked.map_eq_ok read
    have head : category.id = own := (List.cons.inj ids).1
    refine ⟨rfl, ⟨s, category, rfl, valid, ?_⟩, place⟩
    rw [head]
    exact fun ownUsed => other (ownFirst ownUsed)
  · rintro ⟨rfl, ⟨_, category, ⟨⟩, valid, free⟩, -⟩ rfl
    obtain ⟨_, valid', rfl⟩ := Schema.Checked.map_eq_ok read
    cases valid.symm.trans valid'
    have head : category.id = own := (List.cons.inj ids).1
    exact free (head ▸ used)

theorem NestedClash.isOk {context : Context} {id : Snowflake} (h : c.NestedClash context v id) :
    ∃ entity, c.read v = .ok entity := by
  obtain ⟨rfl, ⟨_, category, -, valid, -⟩, -⟩ := h
  exact ⟨.category category, congrArg (Except.map Entity.category) valid⟩

end Capability

/-- Where a call is refused for an id that clashes, the field that is named holds an id. It is
the one that is reported, unless a category with a free id is refused for a channel in it: then
the id of the category is named. -/
theorem clash_place {c : Capability} {context : Context} {v : Json} {e : Invalid} {id : Snowflake}
    (refused : c.declare context v = .error e) (clash : e.constraint.clash? = some id) :
    e.location.root = c.name ∧ ∃ w there, v.at? e.location.steps = some w ∧
      Snowflake.Spelled there w ∧ (there ≠ id ↔ c.NestedClash context v id) := by
  rcases c.declare_eq_error refused with failed | ⟨-, rfl⟩ |
    ⟨entity, s, first, read, records, rfl, found, rfl⟩
  · obtain ⟨root, w, there, spelled⟩ := c.clash_of_read failed clash
    refine ⟨root, w, id, there, spelled, fun other => absurd rfl other, fun nested => ?_⟩
    obtain ⟨entity, read⟩ := nested.isOk
    cases failed.symm.trans read
  · cases clash
  · cases clash
    obtain ⟨ms, own, nested, rfl, spelled, -⟩ := c.own_of_read read records
    have iff := c.nestedClash_iff read records spelled found
    obtain ⟨w, there, spelled⟩ := spelled
    exact ⟨rfl, w, own, Json.at?_field there, spelled, iff⟩

namespace Sample

/-- A category with a channel that names one role twice, in two spellings. -/
def doubledArgument : Json :=
  .obj [("channels", .arr [channelArgument "3" "lounge" "text" ["7", "+07"]]), ("id", .str "4"),
    ("name", .str "upstairs")]

/-- The second of them is named, which is the id that is reported. -/
theorem clash_place_doubled : ∃ e,
    Capability.category.declare (some {}) doubledArgument = .error e ∧
    e.constraint.clash? = some residents.id ∧
    e.location.text = "category.channels[0].overrides[1].id" ∧
    e.location.root = Capability.category.name ∧
    ∃ w there, doubledArgument.at? e.location.steps = some w ∧ Snowflake.Spelled there w ∧
      (there ≠ residents.id ↔
        Capability.category.NestedClash (some {}) doubledArgument residents.id) := by
  let e : Invalid := ⟨⟨"category", [.field "channels", .item 0, .field "overrides", .item 1,
    .field "id"]⟩, .uniqueId residents.id⟩
  have refused : Capability.category.declare (some {}) doubledArgument = .error e := by rfl
  exact ⟨e, refused, rfl, by decide +kernel, clash_place refused rfl⟩

/-- A context in which a channel has been declared. -/
def newsroom : Context :=
  Context.after (some {}) ⟨.globalChannel .text, .ok (channelArgument "5" "news" "text" [])⟩

/-- A category under a free id, with a channel in it under the id of the first one. -/
def lobbyArgument : Json :=
  .obj [("channels", .arr [channelArgument "5" "chat" "text" []]), ("id", .str "4"),
    ("name", .str "lobby")]

/-- The id 5 is reported, and the field that holds 4 is named for it. -/
theorem nested_clash_misplaced : ∃ e,
    Capability.category.declare newsroom lobbyArgument = .error e ∧
    e.message = "invalid `category.id`: id 5 is already declared" ∧
    e.constraint.clash? = some visitor.id ∧
    lobbyArgument.at? [.field "channels", .item 0, .field "id"] = some (.str "5") ∧
    lobbyArgument.at? e.location.steps = some (.str "4") ∧
    ¬∃ w, lobbyArgument.at? e.location.steps = some w ∧ visitor.id.Spelled w := by
  let e : Invalid := ⟨Capability.category.location.field "id", .unusedId visitor.id⟩
  have refused : Capability.category.declare newsroom lobbyArgument = .error e := by rfl
  have found : lobbyArgument.at? e.location.steps = some (.str "4") := by rfl
  refine ⟨e, refused, by decide +kernel, rfl, rfl, found, ?_⟩
  rintro ⟨w, there, spelled⟩
  cases found.symm.trans there
  have read := Schema.Record.snowflake?_eq_some.2 spelled
  exact absurd read (by decide +kernel)

end Sample
end GuildPlan
