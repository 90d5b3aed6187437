import GuildPlan.Proofs.Fields
import GuildPlan.Proofs.History
import GuildPlan.Proofs.Ordering

/-
  Ids over whole runs. Whatever is called while a setup runs, accepted or not, no number is
  an id twice in its space, however the ids were spelled. The other way round, a declaration
  that is valid in itself is refused for one reason only: it names an id that is taken.
-/
namespace GuildPlan

/-- The ids under which an entity is declared. -/
def Entity.ids : Entity → List Snowflake
  | .channel c => [c.id]
  | .role r => [r.id]
  | .category c => c.ids
  | .builder _ => []

/-- The ids that are taken where a capability declares. -/
def Setup.taken (s : Setup) : Capability → List Snowflake
  | .globalRole => s.roleIds
  | _ => s.channelIds

/-- The lists of overrides that have been declared. -/
def Setup.overrideLists (s : Setup) : List (List Override) :=
  s.channels.map Channel.overrides ++
    s.categories.flatMap fun c => c.overrides :: c.channels.map Channel.overrides

/-- A field of an object spells an id. -/
def Members.SpellId (ms : Members) (id : Snowflake) : Prop := ∃ v ∈ ms.get? "id", id.Spelled v

/-- An argument spells an id under which something is to be declared: its own, or that of a
channel in the category that it describes. -/
inductive Capability.Names : Capability → Json → Snowflake → Prop
  | own {c : Capability} {ms : Members} {id : Snowflake} (spelled : ms.SpellId id) :
    Names c (.obj ms) id
  | nested {ms inner : Members} {items : List Json} {id : Snowflake}
    (listed : ms.get? "channels" = some (.arr items)) (mem : .obj inner ∈ items)
    (spelled : inner.SpellId id) : Names .category (.obj ms) id

/-! ## Ids that are read -/

theorem Snowflake.Spelled.unique {id id' : Snowflake} {v : Json} (h : id.Spelled v)
    (h' : id'.Spelled v) : id = id' := by
  have read := Schema.Record.snowflake?_eq_some.2 h
  rw [Schema.Record.snowflake?_eq_some.2 h'] at read
  exact (Option.some.inj read).symm

theorem Members.SpellId.unique {ms : Members} {id id' : Snowflake} (h : ms.SpellId id)
    (h' : ms.SpellId id') : id = id' := by
  obtain ⟨v, there, spelled⟩ := h
  obtain ⟨v', there', spelled'⟩ := h'
  cases there.symm.trans there'
  exact spelled.unique spelled'

namespace Schema

theorem Record.spellId_of_snowflake {r : Record} {id : Snowflake}
    (ok : r.snowflake "id" = .ok id) : r.members.SpellId id := by
  obtain ⟨v, found, spelled⟩ := snowflake_eq_ok.1 ok
  exact ⟨v, (Option.filter_eq_some_iff.1 found).1, spelled⟩

theorem spellId_of_readChannel {expected : Option ChannelKind} {location : Location} {v : Json}
    {c : Channel} (ok : readChannel expected location v = .ok c) :
    ∃ ms : Members, v = .obj ms ∧ ms.SpellId c.id := by
  unfold readChannel at ok
  simp only [Checked.bind_eq_ok] at ok
  obtain ⟨r, taken, id, identified, _, _, _, _, _, _, _, _, _, _, _, _, ok⟩ := ok
  cases ok
  exact ⟨_, (Record.eq_obj taken identified).1, Record.spellId_of_snowflake identified⟩

theorem spellId_of_readRole {location : Location} {v : Json} {role : Role}
    (ok : readRole location v = .ok role) : ∃ ms : Members, v = .obj ms ∧ ms.SpellId role.id := by
  unfold readRole at ok
  simp only [Checked.bind_eq_ok] at ok
  obtain ⟨r, taken, _, _, id, identified, _, _, _, _, _, _, _, _, _, _, ok⟩ := ok
  cases ok
  exact ⟨_, (Record.eq_obj taken identified).1, Record.spellId_of_snowflake identified⟩

/-- A category has the ids that its argument spells, its own and those of its channels. -/
theorem ids_of_readCategory {location : Location} {v : Json} {c : Category}
    (ok : readCategory location v = .ok c) : ∃ ms : Members, v = .obj ms ∧ ms.SpellId c.id ∧
      ∀ id, id ∈ c.channels.map Channel.id ↔ ∃ (items : List Json) (inner : Members),
        ms.get? "channels" = some (.arr items) ∧ .obj inner ∈ items ∧ inner.SpellId id := by
  unfold readCategory at ok
  simp only [Checked.bind_eq_ok] at ok
  obtain ⟨r, taken, _, _, id, identified, _, _, vs, listed, channels, read, _, _, _, _, _, _,
    _, _, _, _, ok⟩ := ok
  cases ok
  refine ⟨_, (Record.eq_obj taken identified).1, Record.spellId_of_snowflake identified, ?_⟩
  have each := (readItems_forall₂ read).imp fun _ _ ⟨_, ok⟩ => spellId_of_readChannel ok
  intro id
  constructor
  · intro mem
    obtain ⟨channel, there, rfl⟩ := List.mem_map.1 mem
    obtain ⟨v, source, inner, rfl, spelled⟩ := exists_of_mem_right each there
    cases vs with
    | nil => cases source
    | cons first vs => exact ⟨_, inner, Record.get?_of_list listed, source, spelled⟩
  · rintro ⟨items, inner, there, mem, spelled⟩
    cases (Record.list_of_arr there).symm.trans listed
    obtain ⟨channel, nested, ms, whole, spelled'⟩ := exists_of_mem_left each mem
    cases whole
    rw [spelled.unique spelled']
    exact List.mem_map_of_mem nested

end Schema

/-- Capabilities that list no channels name one id. -/
theorem Capability.names_iff {c : Capability} {ms : Members} {own : Snowflake}
    (other : c ≠ .category) (spelled : ms.SpellId own) (id : Snowflake) :
    c.Names (.obj ms) id ↔ id = own := by
  constructor
  · intro names
    cases names with
    | own spelled' => exact spelled'.unique spelled
    | nested => exact absurd rfl other
  · rintro rfl
    exact .own spelled

/-- The ids of what is read are those that the argument spells. -/
theorem Capability.mem_ids_iff {c : Capability} {v : Json} {e : Entity} (ok : c.read v = .ok e)
    (records : c.records = true) (id : Snowflake) : id ∈ e.ids ↔ c.Names v id := by
  cases c with
  | globalChannel kind =>
    obtain ⟨channel, read, rfl⟩ := Schema.Checked.map_eq_ok ok
    obtain ⟨ms, rfl, spelled⟩ := Schema.spellId_of_readChannel read
    have other : Capability.globalChannel kind ≠ .category := nofun
    exact List.mem_singleton.trans (names_iff other spelled id).symm
  | globalRole =>
    obtain ⟨role, read, rfl⟩ := Schema.Checked.map_eq_ok ok
    obtain ⟨ms, rfl, spelled⟩ := Schema.spellId_of_readRole read
    have other : Capability.globalRole ≠ .category := nofun
    exact List.mem_singleton.trans (names_iff other spelled id).symm
  | category =>
    obtain ⟨category, read, rfl⟩ := Schema.Checked.map_eq_ok ok
    obtain ⟨ms, rfl, spelled, nested⟩ := Schema.ids_of_readCategory read
    show id ∈ category.id :: category.channels.map Channel.id ↔ _
    rw [List.mem_cons, nested id]
    constructor
    · rintro (rfl | ⟨items, inner, listed, mem, spelled'⟩)
      · exact .own spelled
      · exact .nested listed mem spelled'
    · intro names
      cases names with
      | own spelled' => exact .inl (spelled'.unique spelled)
      | nested listed mem spelled' => exact .inr ⟨_, _, listed, mem, spelled'⟩
  | channel kind => cases records
  | override kind => cases records

/-! ## Ids that are taken -/

theorem requireUnused_cases (location : Location) (taken ids : List Snowflake) :
    (requireUnused location taken ids = .ok () ∧ ∀ id ∈ ids, id ∉ taken) ∨
    ∃ id ∈ ids, id ∈ taken ∧
      requireUnused location taken ids = .error ⟨location.field "id", .unusedId id⟩ := by
  cases found : ids.find? (taken.contains ·) with
  | none =>
    have ok : requireUnused location taken ids = .ok () := by
      unfold requireUnused
      rw [found]
    exact .inl ⟨ok, notMem_of_requireUnused ok⟩
  | some id =>
    have used : taken.contains id = true := List.find?_some found
    refine .inr ⟨id, List.mem_of_find?_eq_some found, List.contains_iff_mem.1 used, ?_⟩
    unfold requireUnused
    rw [found]
    rfl

/-- Recording fails where, and only where, an id is taken. -/
theorem Setup.record_of_read {c : Capability} {v : Json} {e : Entity} (s : Setup)
    (location : Location) (ok : c.read v = .ok e) (records : c.records = true) :
    (requireUnused location (s.taken c) e.ids = .ok () → ∃ s', s.record location e = .ok s') ∧
    ∀ x, requireUnused location (s.taken c) e.ids = .error x →
      s.record location e = .error x := by
  cases c with
  | globalChannel kind =>
    obtain ⟨channel, _, rfl⟩ := Schema.Checked.map_eq_ok ok
    exact ⟨fun free => ⟨_, congrArg (· >>= fun _ => pure (s.addChannel channel)) free⟩,
      fun _ used => congrArg (· >>= fun _ => pure (s.addChannel channel)) used⟩
  | globalRole =>
    obtain ⟨role, _, rfl⟩ := Schema.Checked.map_eq_ok ok
    exact ⟨fun free => ⟨_, congrArg (· >>= fun _ => pure (s.addRole role)) free⟩,
      fun _ used => congrArg (· >>= fun _ => pure (s.addRole role)) used⟩
  | category =>
    obtain ⟨category, _, rfl⟩ := Schema.Checked.map_eq_ok ok
    exact ⟨fun free => ⟨_, congrArg (· >>= fun _ => pure (s.addCategory category)) free⟩,
      fun _ used => congrArg (· >>= fun _ => pure (s.addCategory category)) used⟩
  | channel kind => cases records
  | override kind => cases records

/-- Once its argument is read, a call is recorded or refused. -/
theorem Capability.declare_of_read {c : Capability} {v : Json} {e : Entity} (s : Setup)
    (ok : c.read v = .ok e) (records : c.records = true) :
    c.declare (some s) v = s.record c.location e >>= fun s' => pure (e, some s') := by
  unfold declare
  rw [ok, records]
  rfl

/-- A declaration is recorded, or it is refused for an id that is taken. -/
theorem Capability.declare_cases {c : Capability} {v : Json} {e : Entity} (s : Setup)
    (ok : c.read v = .ok e) (records : c.records = true) :
    ((∃ s', c.declare (some s) v = .ok (e, some s')) ∧ ∀ id ∈ e.ids, id ∉ s.taken c) ∨
    ∃ id ∈ e.ids, id ∈ s.taken c ∧
      c.declare (some s) v = .error ⟨c.location.field "id", .unusedId id⟩ := by
  have declared := c.declare_of_read s ok records
  obtain ⟨recorded, refused⟩ := s.record_of_read c.location ok records
  rcases requireUnused_cases c.location (s.taken c) e.ids with ⟨free, unused⟩ | ⟨id, mem, used, same⟩
  · obtain ⟨s', done⟩ := recorded free
    refine .inl ⟨⟨s', ?_⟩, unused⟩
    rw [declared, done]
    rfl
  · refine .inr ⟨id, mem, used, ?_⟩
    rw [declared, refused _ same]
    rfl

theorem nodup_numbers {ids : List Snowflake} (distinct : ids.Nodup) :
    (ids.map Snowflake.toNat).Nodup :=
  distinct.map fun _ _ => Snowflake.eq_of_toNat_eq

theorem Setup.Distinct.overrideLists {s : Setup} (h : s.Distinct) :
    ∀ overrides ∈ s.overrideLists, DistinctSubjects overrides := by
  refine List.forall_mem_append.2 ⟨List.forall_mem_map.2 h.globals, fun overrides mem => ?_⟩
  obtain ⟨c, declared, mem⟩ := List.mem_flatMap.1 mem
  rcases List.mem_cons.1 mem with rfl | mem
  · exact h.categories c declared
  · obtain ⟨channel, there, rfl⟩ := List.mem_map.1 mem
    exact h.nested c declared channel there

namespace Script

/-- What a call through a context answers, once its argument is converted, depends on the
declaration alone. -/
theorem runCapability_of_toJson {m : Machine} {r : ContextRef} {c : Capability} {t : TableRef}
    {json : Json} {g : Registry}
    (given : toJson m.heap c.location (.table t) m.registry = .ok json g) :
    (∀ p, c.declare (m.context r) json = .ok p →
      ∃ v, (runCapability c (some r) (.table t) m).1 = .ok v) ∧
    ∀ e, c.declare (m.context r) json = .error e →
      (runCapability c (some r) (.table t) m).1 = .error (.invalid e) := by
  have left : (runCapability c (some r) (.table t) m).1 =
      (declareIn c r json { m with registry := g }).1 := by
    unfold runCapability
    dsimp only
    rw [run_bind]
    unfold leave
    rw [run_modifyGet, given]
  have context : ({ m with registry := g } : Machine).context r = m.context r := rfl
  rw [left]
  unfold declareIn
  rw [run_get_bind, context]
  constructor
  · rintro ⟨e, after⟩ ok
    rw [ok]
    exact ⟨_, rfl⟩
  · intro e refused
    rw [refused]
    rfl

/-! ## Whole runs -/

/-- A context holds a setup in which every id stands for one thing, and it takes whatever is
valid in itself and spells no id that is taken. -/
structure Machine.KeepsIds (m : Machine) (r : ContextRef) (s : Setup) : Prop where
  held : m.context r = some s
  channels : (s.channelIds.map Snowflake.toNat).Nodup
  roles : (s.roleIds.map Snowflake.toNat).Nodup
  subjects : ∀ overrides ∈ s.overrideLists, (overrides.map fun o => o.id.toNat).Nodup
  answer : ∀ (c : Capability) (t : TableRef) (json : Json) (g : Registry) (e : Entity),
    c.records = true → toJson m.heap c.location (.table t) m.registry = .ok json g →
    c.read json = .ok e →
    ((∃ v, (runCapability c (some r) (.table t) m).1 = .ok v) ∧
      ∀ id, c.Names json id → id ∉ s.taken c) ∨
    ∃ id, c.Names json id ∧ id ∈ s.taken c ∧ (runCapability c (some r) (.table t) m).1 =
      .error (.invalid ⟨c.location.field "id", .unusedId id⟩)

/-- Whatever is called on a context that was empty at first, it keeps its ids distinct, until
it is closed. -/
theorem ids_unique {m : Machine} {r : ContextRef} {events : List Event}
    (fresh : m.context r = some {}) (unsealed : .closed r ∉ events) :
    ∃ s, (m.afterAll events).KeepsIds r s := by
  obtain ⟨calls, made⟩ := afterAll_calls (context_size fresh) unsealed
  obtain ⟨s, built⟩ := Context.afterAll_open {} calls
  have held : (m.afterAll events).context r = some s := by
    rw [made, fresh, built]
  have distinct : s.Distinct := .of_calls built
  refine ⟨s, held, nodup_numbers distinct.channelIds, nodup_numbers distinct.roleIds, ?_, ?_⟩
  · intro overrides mem
    have subjects := nodup_numbers (distinct.overrideLists overrides mem)
    rwa [List.map_map] at subjects
  · intro c t json g e records given read
    have names := c.mem_ids_iff read records
    obtain ⟨accepted, refused⟩ := runCapability_of_toJson (r := r) given
    rw [held] at accepted refused
    rcases Capability.declare_cases s read records with ⟨⟨s', done⟩, unused⟩ | ⟨id, mem, used, same⟩
    · exact .inl ⟨accepted _ done, fun id named => unused id ((names id).2 named)⟩
    · exact .inr ⟨id, (names id).1 mem, used, refused _ same⟩

/-- A machine with an empty context and two tables that describe a role under one id, each in
its own spelling. -/
def spelledTwice : Machine where
  heap := #[.ofFields [("id", .text "7"), ("name", .text "residents")],
    .ofFields [("id", .text " +007"), ("name", .text "owner")]]
  contexts := #[some {}]

theorem ids_unique_spellings : ∃ s,
    (spelledTwice.afterAll [.called .globalRole (some ⟨0⟩) (.table ⟨0⟩)]).KeepsIds ⟨0⟩ s ∧
    s.roleIds.map Snowflake.toNat = [7] ∧
    (runCapability .globalRole (some ⟨0⟩) (.table ⟨1⟩)
      (spelledTwice.afterAll [.called .globalRole (some ⟨0⟩) (.table ⟨0⟩)])).1.isOk = false := by
  have unsealed : Event.closed ⟨0⟩ ∉ [Event.called .globalRole (some ⟨0⟩) (.table ⟨0⟩)] := by simp
  obtain ⟨s, keeps⟩ := ids_unique (m := spelledTwice) rfl unsealed
  have roles : ((spelledTwice.afterAll [.called .globalRole (some ⟨0⟩) (.table ⟨0⟩)]).context
      ⟨0⟩).map (fun s => s.roleIds.map Snowflake.toNat) = some [7] := by decide +kernel
  rw [keeps.held] at roles
  exact ⟨s, keeps, Option.some.inj roles, by decide +kernel⟩

end Script
end GuildPlan
