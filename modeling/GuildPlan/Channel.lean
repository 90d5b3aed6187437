import GuildPlan.Override

/-
  Text and voice channels.
-/
namespace GuildPlan

inductive ChannelKind
  | text
  | voice
  deriving DecidableEq

namespace ChannelKind

def name : ChannelKind → String
  | .text => "text"
  | .voice => "voice"

def ofText? : String → Option ChannelKind
  | "text" => some .text
  | "voice" => some .voice
  | _ => none

/-- The remote platform's number of the kind. -/
def remoteNumber : ChannelKind → Nat
  | .text => 0
  | .voice => 2

end ChannelKind

/-- A channel, declared globally or inside a category. -/
structure Channel where
  id : Snowflake
  name : String
  kind : ChannelKind
  overrides : List Override
  /-- Options of the kind and fields of the platform, carried as they were declared. -/
  options : Members
  /-- The predicate that admits the channel; without one it is always admitted. -/
  inclusion : Option Handle

/-- The members with an inclusion predicate's marker put in, if there is one. -/
def Members.withInclusion (inclusion : Option Handle) (ms : Members) : Members :=
  match inclusion with
  | some h => insertEntry "include" h.marker ms
  | none => ms

namespace Channel

/-- How log lines call the channel. -/
def label (c : Channel) : String :=
  match c.kind with
  | .text => "#" ++ c.name
  | .voice => c.name ++ " (voice)"

/-- The members of the written form, in their order. -/
def fields (c : Channel) (overrides : List Json) : Members :=
  [("id", .str c.id.text), ("name", .str c.name), ("type", .str c.kind.name),
    ("overrides", .arr overrides)] ++ c.options

/-- The form in which an artifact holds the channel. -/
def written (c : Channel) : Json := .obj (c.fields (c.overrides.map Override.written))

/-- The form in which a script gets the channel back, its predicate's marker put in. -/
def toScript (c : Channel) : Json :=
  .obj ((Members.ofList (c.fields (c.overrides.map Override.toScript))).withInclusion c.inclusion)

end Channel
end GuildPlan
