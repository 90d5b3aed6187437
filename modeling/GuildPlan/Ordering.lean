import GuildPlan.Guild

/-
  Canonical order. Overrides stand by kind, roles first, then by id; everything else stands
  by id. Every sort keeps equal elements in the order in which it finds them.
-/
namespace GuildPlan

def Override.precedes (a b : Override) : Bool :=
  a.kind.rank < b.kind.rank || (a.kind.rank = b.kind.rank && a.id.toNat ≤ b.id.toNat)

/-- Overrides in canonical order. -/
def sortOverrides (overrides : List Override) : List Override :=
  overrides.mergeSort Override.precedes

/-- Elements in the order of their ids. -/
def sortById {α : Type} (id : α → Snowflake) (xs : List α) : List α :=
  xs.mergeSort fun a b => (id a).toNat ≤ (id b).toNat

def Channel.ordered (c : Channel) : Channel :=
  { c with overrides := sortOverrides c.overrides }

/-- The category with the overrides of its own and of its channels in canonical order. -/
def Category.ordered (c : Category) : Category :=
  { c with overrides := sortOverrides c.overrides, channels := c.channels.map Channel.ordered }

/-- The channel without its predicate, which means nothing outside its interpreter. -/
def Channel.settled (c : Channel) : Channel := { c with inclusion := none }

/-- The category without predicates, its channels in the order of their ids. -/
def Category.settled (c : Category) : Category :=
  { c with inclusion := none, channels := sortById Channel.id (c.channels.map Channel.settled) }

/-- The artifact of what is left of a declaration, every collection in canonical order. -/
def Guild.sequence (id : String) (channels : List Channel) (roles : List Role)
    (categories : List Category) : Guild :=
  { id
    channels := sortById Channel.id (channels.map Channel.settled)
    roles := sortById Role.id roles
    categories := sortById Category.id (categories.map Category.settled) }

end GuildPlan
