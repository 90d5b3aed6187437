import GuildPlan.Channel

/-
  Categories: groups of channels with overrides that their channels inherit.
-/
namespace GuildPlan

structure Category where
  id : Snowflake
  name : String
  channels : List Channel
  overrides : List Override
  /-- A predicate that each channel of the category has to pass besides its own. -/
  inclusion : Option Handle

namespace Category

/-- The members of the written form, in their order. -/
def fields (c : Category) (channels overrides : List Json) : Members :=
  [("id", .str c.id.text), ("name", .str c.name), ("channels", .arr channels),
    ("overrides", .arr overrides)]

/-- The form in which an artifact holds the category. -/
def written (c : Category) : Json :=
  .obj (c.fields (c.channels.map Channel.written) (c.overrides.map Override.written))

/-- The form in which a script gets the category back, the markers of its predicate and of
its channels' put in. -/
def toScript (c : Category) : Json :=
  .obj ((Members.ofList
    (c.fields (c.channels.map Channel.toScript) (c.overrides.map Override.toScript))).withInclusion
      c.inclusion)

end Category
end GuildPlan
