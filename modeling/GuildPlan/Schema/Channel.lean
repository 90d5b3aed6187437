import GuildPlan.Channel
import GuildPlan.Schema.Override

/-
  Channels: the open builder, and the strict form of a declared channel.
-/
namespace GuildPlan.Schema

def channelChoices : String := "\"text\" or \"voice\""

/-- The fields of a channel that are not options. -/
def channelFields : List String := ["id", "name", "type", "overrides", "include"]

/-- Checks the kind of a channel, and its id if it has one, and leaves the rest as it is. -/
def readChannelBuilder (location : Location) (v : Json) (kind : ChannelKind) :
    Checked OpenEntity := do
  let r ← Record.ofJson location v
  let kind ← r.kind "type" (some kind) ChannelKind.ofText? channelChoices
  let id ← r.optionalSnowflake "id"
  return { kind := kind.name, id, extra := r.rest ["type", "id"] }

/-- Checks the options that a kind of channel knows; any other option may hold anything. -/
def checkOptions (r : Record) : ChannelKind → Checked Unit
  | .text => do
    let _ ← r.optionalString "topic"
    let _ ← r.optionalBool "nsfw"
    let _ ← r.optionalUnsigned "slowmode"
  | .voice => do
    let _ ← r.optionalUnsigned "bitrate"
    let _ ← r.optionalUnsigned "user_limit"

/-- Reads a channel, of the expected kind if one is expected. -/
def readChannel (expected : Option ChannelKind) (location : Location) (v : Json) :
    Checked Channel := do
  let r ← Record.ofJson location v
  let id ← r.snowflake "id"
  let name ← r.name "name"
  let kind ← r.kind "type" expected ChannelKind.ofText? channelChoices
  let overrides ← readOverrides (r.place "overrides") (← r.list "overrides")
  let inclusion ← r.predicate "include"
  checkOptions r kind
  return { id, name, kind, overrides, options := r.rest channelFields, inclusion }

end GuildPlan.Schema
