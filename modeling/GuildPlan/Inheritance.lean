import GuildPlan.Category

/-
  A category's overrides pass down to its channels. A channel takes a copy of each override
  whose subject it has none for; where it has one, the first with the subject's id, that
  one's open permissions are filled.
-/
namespace GuildPlan

/-- A list of overrides after it inherits one from its parent. -/
def inheritOverride (parent : Override) : List Override → List Override
  | [] => [parent]
  | own :: rest =>
    if own.id = parent.id then own.inheritFrom parent :: rest
    else own :: inheritOverride parent rest

/-- A list of overrides after it inherits each of its parent's in turn. -/
def inheritOverrides (own parents : List Override) : List Override :=
  parents.foldl (fun own parent => inheritOverride parent own) own

/-- The channel with the overrides of its category passed down. -/
def Channel.inheriting (parents : List Override) (c : Channel) : Channel :=
  { c with overrides := inheritOverrides c.overrides parents }

/-- The category with its overrides passed down to its channels. -/
def Category.synced (c : Category) : Category :=
  { c with channels := c.channels.map (Channel.inheriting c.overrides) }

end GuildPlan
