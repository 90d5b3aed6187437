import GuildPlan.Category
import GuildPlan.Schema.Channel

/-
  Categories. A category, its channels and nothing else share one space of ids here.
-/
namespace GuildPlan.Schema

def categoryFields : List String := ["id", "name", "channels", "overrides", "include"]

/-- Refuses the first channel that has its category's id. -/
def requireOtherIds (location : Location) (id : Snowflake) (ids : List Snowflake) :
    Checked Unit :=
  match ids.findIdx? (· = id) with
  | some index => reject ((location.item index).field "id") (.notCategoryId id)
  | none => .ok ()

/-- Reads a category and the channels in it, which have to name their kinds. -/
def readCategory (location : Location) (v : Json) : Checked Category := do
  let r ← Record.ofJson location v
  r.rejectUnknown categoryFields
  let id ← r.snowflake "id"
  let name ← r.name "name"
  let channels ← readItems (readChannel none) (r.place "channels") 0 (← r.list "channels")
  requireUnique (r.place "channels") (channels.map Channel.id)
  requireOtherIds (r.place "channels") id (channels.map Channel.id)
  let overrides ← readOverrides (r.place "overrides") (← r.list "overrides")
  let inclusion ← r.predicate "include"
  return { id, name, channels, overrides, inclusion }

end GuildPlan.Schema
