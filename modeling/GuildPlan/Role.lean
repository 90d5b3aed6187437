import GuildPlan.Failure
import GuildPlan.Permission

/-
  Roles: a set of permissions with display attributes.
-/
namespace GuildPlan

structure Role where
  id : Snowflake
  name : String
  permissions : PermissionBits
  /-- Red, green and blue, eight bits each. -/
  color : Option Nat
  hoist : Bool
  mentionable : Bool
  deriving DecidableEq

namespace Role

/-- The members of the written form, in their order; no color is left out. -/
def fields (r : Role) : Members :=
  [("id", .str r.id.text), ("name", .str r.name),
    ("permissions", .str (Text.decimal r.permissions.toNat))] ++
  (r.color.map fun n => ("color", Json.int n)).toList ++
  [("hoist", .bool r.hoist), ("mentionable", .bool r.mentionable)]

/-- The form in which an artifact holds the role. -/
def written (r : Role) : Json := .obj r.fields

/-- The form in which a script gets the role back. -/
def toScript (r : Role) : Json := .obj (Members.ofList r.fields)

end Role
end GuildPlan
