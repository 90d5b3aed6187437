import GuildPlan.Proofs.Checked

/-
  Arguments that are accepted, part by part: the object that a channel or a category was read
  from, and the member that each of its parts was read from.
-/
namespace GuildPlan.Schema

theorem Record.ofJson_eq_ok {location : Location} {v : Json} {r : Record}
    (ok : Record.ofJson location v = .ok r) : v = .obj r.members ∨ r.members = [] := by
  unfold ofJson at ok
  split at ok
  · cases ok
    exact .inl rfl
  · cases ok
    exact .inr rfl
  · cases ok

theorem Record.get?_of_snowflake {r : Record} {key : String} {id : Snowflake}
    (ok : r.snowflake key = .ok id) : ∃ j, r.members.get? key = some j := by
  unfold snowflake at ok
  split at ok
  · cases ok
  · next v found => exact ⟨v, (Option.filter_eq_some_iff.1 found).1⟩

/-- A list that is not empty is there as it is. -/
theorem Record.get?_of_list {r : Record} {key : String} {v : Json} {vs : List Json}
    (ok : r.list key = .ok (v :: vs)) : r.members.get? key = some (.arr (v :: vs)) := by
  unfold list at ok
  split at ok
  · cases ok
  · next found =>
    cases ok
    exact (Option.filter_eq_some_iff.1 found).1
  · cases ok
  · cases ok

/-- A record that has an id was an object. -/
theorem Record.eq_obj {location : Location} {v : Json} {r : Record} {key : String}
    {id : Snowflake} (taken : Record.ofJson location v = .ok r) (ok : r.snowflake key = .ok id) :
    v = .obj r.members ∧ ∃ j, r.members.get? key = some j := by
  obtain ⟨j, found⟩ := Record.get?_of_snowflake ok
  rcases Record.ofJson_eq_ok taken with whole | empty
  · exact ⟨whole, j, found⟩
  · rw [empty] at found
    cases found

/-- The further fields of a record are members of it under other names. -/
theorem Record.mem_of_rest {r : Record} {known : List String} {m : String × Json}
    (mem : m ∈ r.rest known) : m ∈ r.members ∧ m.1 ∉ known := by
  obtain ⟨there, other⟩ := List.mem_filter.1 mem
  refine ⟨there, fun named => ?_⟩
  simp [named] at other

theorem extra_of_readOverride {location : Location} {v : Json} {o : Override}
    (ok : readOverride location v = .ok o) : ∃ r : Record,
      v = .obj r.members ∧ o.extra = r.rest ["id", "type", "permissions"] := by
  unfold readOverride at ok
  simp only [Checked.bind_eq_ok] at ok
  obtain ⟨r, taken, id, identified, _, _, _, _, ok⟩ := ok
  cases ok
  exact ⟨r, (Record.eq_obj taken identified).1, rfl⟩

/-- What is read as a list of overrides: the items of a list in turn. -/
def OverridesOf (r : Record) (overrides : List Override) : Prop :=
  ∃ vs, r.list "overrides" = .ok vs ∧
    List.Forall₂ (fun v o => ∃ place, readOverride place v = .ok o) vs overrides

theorem overridesOf_readOverrides {r : Record} {location : Location} {vs : List Json}
    {overrides : List Override} (listed : r.list "overrides" = .ok vs)
    (ok : readOverrides location vs = .ok overrides) : OverridesOf r overrides := by
  unfold readOverrides at ok
  obtain ⟨_, read, ok⟩ := Checked.bind_eq_ok.1 ok
  obtain ⟨_, _, ok⟩ := Checked.bind_eq_ok.1 ok
  cases ok
  exact ⟨vs, listed, readItems_forall₂ read⟩

/-- What a channel is read from: an object with an id, and in it the channel's predicate, its
overrides and its options. -/
structure ChannelOf (r : Record) (v : Json) (c : Channel) : Prop where
  whole : v = .obj r.members
  identified : ∃ j, r.members.get? "id" = some j
  inclusion : r.predicate "include" = .ok c.inclusion
  overrides : OverridesOf r c.overrides
  options : c.options = r.rest channelFields

theorem channelOf_readChannel {expected : Option ChannelKind} {location : Location} {v : Json}
    {c : Channel} (ok : readChannel expected location v = .ok c) : ∃ r, ChannelOf r v c := by
  unfold readChannel at ok
  simp only [Checked.bind_eq_ok] at ok
  obtain ⟨r, taken, id, identified, _, _, _, _, vs, listed, overrides, read, inclusion, attached,
    _, _, ok⟩ := ok
  cases ok
  obtain ⟨whole, there⟩ := Record.eq_obj taken identified
  exact ⟨r, whole, there, attached, overridesOf_readOverrides listed read, rfl⟩

/-- What a category is read from: an object, and in it the category's predicate, its overrides
and a list of what its channels are read from. -/
structure CategoryOf (r : Record) (v : Json) (c : Category) : Prop where
  whole : v = .obj r.members
  inclusion : r.predicate "include" = .ok c.inclusion
  overrides : OverridesOf r c.overrides
  channels : ∃ vs, r.list "channels" = .ok vs ∧
    List.Forall₂ (fun v c => ∃ r, ChannelOf r v c) vs c.channels

theorem categoryOf_readCategory {location : Location} {v : Json} {c : Category}
    (ok : readCategory location v = .ok c) : ∃ r, CategoryOf r v c := by
  unfold readCategory at ok
  simp only [Checked.bind_eq_ok] at ok
  obtain ⟨r, taken, _, _, id, identified, _, _, vs, listed, channels, read, _, _, _, _, ws, below,
    overrides, readBelow, inclusion, attached, ok⟩ := ok
  cases ok
  refine ⟨r, (Record.eq_obj taken identified).1, attached,
    overridesOf_readOverrides below readBelow, vs, listed, ?_⟩
  exact (readItems_forall₂ read).imp fun _ _ ⟨_, ok⟩ => channelOf_readChannel ok

end GuildPlan.Schema
