import GuildPlan.Category
import GuildPlan.Json.Printer
import GuildPlan.Role

/-
  What a script declares, and the artifact that is made of it.
-/
namespace GuildPlan

/-- The declarations that were accepted while a script's setup ran, in call order. -/
structure Setup where
  channels : List Channel := []
  roles : List Role := []
  categories : List Category := []

namespace Setup

/-- The ids taken in the space of global channels, categories and their channels. -/
def channelIds (s : Setup) : List Snowflake :=
  s.channels.map Channel.id ++
    s.categories.flatMap fun c => c.id :: c.channels.map Channel.id

/-- The ids taken in the space of roles. -/
def roleIds (s : Setup) : List Snowflake := s.roles.map Role.id

def isEmpty (s : Setup) : Bool :=
  s.channels.isEmpty && s.roles.isEmpty && s.categories.isEmpty

def addChannel (s : Setup) (c : Channel) : Setup := { s with channels := s.channels ++ [c] }
def addRole (s : Setup) (r : Role) : Setup := { s with roles := s.roles ++ [r] }
def addCategory (s : Setup) (c : Category) : Setup := { s with categories := s.categories ++ [c] }

end Setup

/-- What one evaluation of a script declared. -/
structure Declaration where
  guildId : String
  setup : Setup

/-- The finished configuration of a guild. -/
structure Guild where
  id : String
  channels : List Channel
  roles : List Role
  categories : List Category

namespace Guild

def written (g : Guild) : Json :=
  .obj [("guildId", .str g.id), ("globalChannels", .arr (g.channels.map Channel.written)),
    ("globalRoles", .arr (g.roles.map Role.written)),
    ("categories", .arr (g.categories.map Category.written))]

/-- The artifact's text. -/
def text (g : Guild) : String := g.written.pretty

/-- The declaration that an artifact amounts to. -/
def declaration (g : Guild) : Declaration :=
  { guildId := g.id
    setup := { channels := g.channels, roles := g.roles, categories := g.categories } }

end Guild
end GuildPlan
