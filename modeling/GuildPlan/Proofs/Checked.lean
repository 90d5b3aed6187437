import GuildPlan.Capability
import GuildPlan.Proofs.Distinct
import Mathlib.Data.List.Forall2

/-
  What an argument satisfies that a capability accepts: no list in it names an id twice, and
  no channel has the id of its category.
-/
namespace GuildPlan.Schema

variable {α β : Type}

theorem Checked.bind_eq_ok {x : Checked α} {f : α → Checked β} {b : β} :
    x >>= f = .ok b ↔ ∃ a, x = .ok a ∧ f a = .ok b := by
  cases x with
  | error e => exact ⟨fun ok => (nomatch ok), fun ⟨_, ok, _⟩ => (nomatch ok)⟩
  | ok a => exact ⟨fun ok => ⟨a, rfl, ok⟩, fun ⟨_, same, ok⟩ => by cases same; exact ok⟩

theorem Checked.map_eq_ok {x : Checked α} {f : α → β} {b : β} (ok : x.map f = .ok b) :
    ∃ a, x = .ok a ∧ b = f a := by
  cases x with
  | error e => cases ok
  | ok a =>
    cases ok
    exact ⟨a, rfl, rfl⟩

/-! ## Lists -/

section Pairs
variable {R : α → β → Prop} {xs : List α} {ys : List β}

theorem exists_of_mem_right (pairs : List.Forall₂ R xs ys) {y : β} (mem : y ∈ ys) :
    ∃ x ∈ xs, R x y := by
  induction pairs with
  | nil => cases mem
  | cons here _ ih =>
    rcases List.mem_cons.1 mem with rfl | mem
    · exact ⟨_, List.mem_cons_self, here⟩
    · obtain ⟨x, there, related⟩ := ih mem
      exact ⟨x, List.mem_cons_of_mem _ there, related⟩

theorem exists_of_mem_left (pairs : List.Forall₂ R xs ys) {x : α} (mem : x ∈ xs) :
    ∃ y ∈ ys, R x y :=
  exists_of_mem_right pairs.flip mem

end Pairs

/-- Every item that is accepted was read from the item in its place. -/
theorem readItems_forall₂ {read : Location → Json → Checked α} {location : Location}
    {index : Nat} {vs : List Json} {xs : List α} (ok : readItems read location index vs = .ok xs) :
    List.Forall₂ (fun v x => ∃ place, read place v = .ok x) vs xs := by
  induction vs generalizing index xs with
  | nil =>
    cases ok
    exact .nil
  | cons v vs ih =>
    unfold readItems at ok
    obtain ⟨x, first, ok⟩ := Checked.bind_eq_ok.1 ok
    obtain ⟨rest, others, ok⟩ := Checked.bind_eq_ok.1 ok
    cases ok
    exact .cons ⟨_, first⟩ (ih others)

/-- What holds of every item that is accepted holds of all items of a list. -/
theorem readItems_forall {read : Location → Json → Checked α} {P : α → Prop}
    {location : Location} {index : Nat} {vs : List Json} {xs : List α}
    (each : ∀ v ∈ vs, ∀ location x, read location v = .ok x → P x)
    (ok : readItems read location index vs = .ok xs) : ∀ x ∈ xs, P x := by
  intro x mem
  obtain ⟨v, there, place, first⟩ := exists_of_mem_right (readItems_forall₂ ok) mem
  exact each v there place x first

theorem nodup_of_firstRepeat {seen ids : List Snowflake} {index : Nat}
    (none : firstRepeat seen index ids = none) : ids.Nodup ∧ ∀ id ∈ ids, id ∉ seen := by
  induction ids generalizing seen index with
  | nil => exact ⟨List.nodup_nil, List.forall_mem_nil _⟩
  | cons id ids ih =>
    unfold firstRepeat at none
    split at none
    · cases none
    · next unseen =>
      obtain ⟨distinct, others⟩ := ih none
      refine ⟨List.nodup_cons.2 ⟨fun again => ?_, distinct⟩, List.forall_mem_cons.2 ⟨unseen, ?_⟩⟩
      · exact others id again List.mem_cons_self
      · exact fun other mem before => others other mem (List.mem_cons_of_mem _ before)

theorem nodup_of_requireUnique {location : Location} {ids : List Snowflake} {u : Unit}
    (ok : requireUnique location ids = .ok u) : ids.Nodup := by
  unfold requireUnique at ok
  split at ok
  · cases ok
  · next none => exact (nodup_of_firstRepeat none).1

theorem notMem_of_requireOtherIds {location : Location} {id : Snowflake} {ids : List Snowflake}
    {u : Unit} (ok : requireOtherIds location id ids = .ok u) : id ∉ ids := by
  unfold requireOtherIds at ok
  split at ok
  · cases ok
  · next none =>
    intro mem
    have differ := List.findIdx?_eq_none_iff.1 none id mem
    exact of_decide_eq_false differ rfl

/-! ## Entities -/

theorem readOverrides_distinct {location : Location} {vs : List Json} {overrides : List Override}
    (ok : readOverrides location vs = .ok overrides) : DistinctSubjects overrides := by
  unfold readOverrides at ok
  obtain ⟨xs, _, ok⟩ := Checked.bind_eq_ok.1 ok
  obtain ⟨_, unique, ok⟩ := Checked.bind_eq_ok.1 ok
  cases ok
  exact nodup_of_requireUnique unique

theorem readChannel_distinct {expected : Option ChannelKind} {location : Location} {v : Json}
    {c : Channel} (ok : readChannel expected location v = .ok c) :
    DistinctSubjects c.overrides := by
  unfold readChannel at ok
  simp only [Checked.bind_eq_ok] at ok
  obtain ⟨r, _, id, _, name, _, kind, _, vs, _, overrides, listed, inclusion, _, _, _, ok⟩ := ok
  cases ok
  exact readOverrides_distinct listed

end Schema

/-- A category in which no id occurs twice in its space. -/
structure Category.Distinct (c : Category) : Prop where
  ids : c.ids.Nodup
  overrides : DistinctSubjects c.overrides
  nested : ∀ channel ∈ c.channels, DistinctSubjects channel.overrides

theorem Schema.readCategory_distinct {location : Location} {v : Json} {c : Category}
    (ok : readCategory location v = .ok c) : c.Distinct := by
  unfold readCategory at ok
  simp only [Checked.bind_eq_ok] at ok
  obtain ⟨r, _, _, _, id, _, name, _, vs, _, channels, read, _, unique, _, others, ws, _,
    overrides, listed, inclusion, _, ok⟩ := ok
  cases ok
  exact ⟨List.nodup_cons.2 ⟨notMem_of_requireOtherIds others, nodup_of_requireUnique unique⟩,
    readOverrides_distinct listed, readItems_forall (fun _ _ _ _ => readChannel_distinct) read⟩

/-- An entity in which no id occurs twice in its space. -/
def Entity.Distinct : Entity → Prop
  | .channel c => DistinctSubjects c.overrides
  | .category c => c.Distinct
  | .role _ | .builder _ => True

/-- What a capability reads: a channel, a category, or something without channels. -/
theorem Capability.read_eq_ok {c : Capability} {v : Json} {e : Entity} (ok : c.read v = .ok e) :
    (∃ expected location channel, Schema.readChannel expected location v = .ok channel ∧
      e = .channel channel) ∨
    (∃ location category, Schema.readCategory location v = .ok category ∧ e = .category category) ∨
    (∃ role, e = .role role) ∨ ∃ builder, e = .builder builder := by
  cases c with
  | globalChannel kind =>
    obtain ⟨channel, read, rfl⟩ := Schema.Checked.map_eq_ok ok
    exact .inl ⟨_, _, channel, read, rfl⟩
  | category =>
    obtain ⟨category, read, rfl⟩ := Schema.Checked.map_eq_ok ok
    exact .inr (.inl ⟨_, category, read, rfl⟩)
  | globalRole =>
    obtain ⟨role, _, rfl⟩ := Schema.Checked.map_eq_ok ok
    exact .inr (.inr (.inl ⟨role, rfl⟩))
  | channel kind =>
    obtain ⟨builder, _, rfl⟩ := Schema.Checked.map_eq_ok ok
    exact .inr (.inr (.inr ⟨builder, rfl⟩))
  | override kind =>
    obtain ⟨builder, _, rfl⟩ := Schema.Checked.map_eq_ok ok
    exact .inr (.inr (.inr ⟨builder, rfl⟩))

theorem Capability.read_distinct {c : Capability} {v : Json} {e : Entity}
    (ok : c.read v = .ok e) : e.Distinct := by
  obtain ⟨_, _, _, read, rfl⟩ | ⟨_, _, read, rfl⟩ | ⟨_, rfl⟩ | ⟨_, rfl⟩ := Capability.read_eq_ok ok
  · exact Schema.readChannel_distinct read
  · exact Schema.readCategory_distinct read
  all_goals trivial

end GuildPlan
