import GuildPlan.Guild
import GuildPlan.Schema.Category
import GuildPlan.Schema.Role

/-
  What a script may call, and what a call does to the declarations of a running setup.

  Every capability checks its argument and gives the entity back. Called through the setup
  context, those for global entities and categories also record it, as long as the context
  is open; called through the library they record nothing.
-/
namespace GuildPlan

inductive Capability
  | globalChannel (kind : ChannelKind)
  | globalRole
  | channel (kind : ChannelKind)
  | override (kind : SubjectKind)
  | category
  deriving DecidableEq

/-- What an accepted argument amounts to. -/
inductive Entity
  | channel (c : Channel)
  | role (r : Role)
  | category (c : Category)
  | builder (e : Schema.OpenEntity)

/-- The form in which a script gets an entity back. -/
def Entity.toScript : Entity → Json
  | .channel c => c.toScript
  | .role r => r.toScript
  | .category c => c.toScript
  | .builder e => e.toScript

namespace Capability

/-- The names by which scripts reach the capability. -/
def path : Capability → List String
  | .globalChannel kind => ["global", kind.name]
  | .globalRole => ["global", "role"]
  | .channel kind => ["channel", kind.name]
  | .override kind => ["override", kind.text]
  | .category => ["category"]

def name (c : Capability) : String := ".".intercalate c.path

/-- The place of the capability's argument in messages. -/
def location (c : Capability) : Location := { root := c.name }

/-- Whether the context records what is declared. -/
def records : Capability → Bool
  | .globalChannel _ | .globalRole | .category => true
  | .channel _ | .override _ => false

/-- Checks an argument. -/
def read (c : Capability) (v : Json) : Schema.Checked Entity :=
  match c with
  | .globalChannel kind => (Schema.readChannel (some kind) c.location v).map .channel
  | .globalRole => (Schema.readRole c.location v).map .role
  | .channel kind => (Schema.readChannelBuilder c.location v kind).map .builder
  | .override kind => (Schema.readOverrideBuilder c.location v kind).map .builder
  | .category => (Schema.readCategory c.location v).map .category

end Capability

/-- Refuses the first of the ids that is taken. -/
def requireUnused (location : Location) (taken ids : List Snowflake) : Schema.Checked Unit :=
  match ids.find? (taken.contains ·) with
  | some id => Schema.reject (location.field "id") (.unusedId id)
  | none => .ok ()

/-- The setup with one more declaration, if its ids are not taken. -/
def Setup.record (s : Setup) (location : Location) : Entity → Schema.Checked Setup
  | .channel c => do
    requireUnused location s.channelIds [c.id]
    return s.addChannel c
  | .role r => do
    requireUnused location s.roleIds [r.id]
    return s.addRole r
  | .category c => do
    requireUnused location s.channelIds (c.id :: c.channels.map Channel.id)
    return s.addCategory c
  | .builder _ => return s

/-- A setup that takes declarations; none once it is closed. -/
abbrev Context := Option Setup

namespace Capability

/-- A call through the context: the entity, and the context afterwards. -/
def declare (c : Capability) (context : Context) (v : Json) :
    Schema.Checked (Entity × Context) := do
  let entity ← c.read v
  if c.records then
    match context with
    | none => Schema.reject c.location .openContext
    | some setup => return (entity, some (← setup.record c.location entity))
  else return (entity, context)

end Capability
end GuildPlan
