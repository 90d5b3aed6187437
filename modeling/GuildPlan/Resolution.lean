import GuildPlan.Inclusion
import GuildPlan.Inheritance
import GuildPlan.Ordering

/-
  From a declaration to the finished configuration: overrides are passed down and put in
  order, predicates take channels away, and what is left is put in order.
-/
namespace GuildPlan

/-- The category as its predicates see it. -/
def Category.prepared (c : Category) : Category := c.synced.ordered

/-- Filters categories in turn, counting what they lose. -/
def filterCategories {σ : Type} (h : Host σ) : List Category → σ →
    Except Failure (List Category × Nat) × σ
  | [], s => (.ok ([], 0), s)
  | c :: cs, s =>
    match filterCategory h c s with
    | (⟨.error e, _⟩, s) => (.error e, s)
    | (⟨.ok removed, left⟩, s) =>
      match filterCategories h cs s with
      | (.error e, s) => (.error e, s)
      | (.ok (rest, more), s) => (.ok (left :: rest, removed + more), s)

def compiled (g : Guild) (excluded : Nat) : LogLine :=
  .info ("Compiled guild " ++ g.id ++ ": " ++ Text.decimal g.channels.length ++
    " global channels, " ++ Text.decimal g.roles.length ++ " roles, " ++
    Text.decimal g.categories.length ++ " categories (" ++ Text.decimal excluded ++
    " channels excluded)")

/-- Resolves a declaration against the host that knows its predicates. -/
def resolve {σ : Type} (h : Host σ) (d : Declaration) (s : σ) : Except Failure Guild × σ :=
  match filterGlobal h (d.setup.channels.map Channel.ordered) s with
  | (⟨.error e, _⟩, s) => (.error e, s)
  | (⟨.ok removed, channels⟩, s) =>
    match filterCategories h (d.setup.categories.map Category.prepared) s with
    | (.error e, s) => (.error e, s)
    | (.ok (categories, more), s) =>
      let g := Guild.sequence d.guildId channels d.setup.roles categories
      (.ok g, h.note (compiled g (removed + more)) s)

end GuildPlan
