import GuildPlan.Guild
import GuildPlan.Proofs.Inheritance
import Mathlib.Data.List.Nodup

/-
  Setups in which nothing is declared twice: one space of ids for global channels,
  categories and their channels, one for roles, and one for each list of overrides.
-/
namespace GuildPlan

/-- No list of overrides in a setup has two for one subject. -/
structure Setup.SubjectsDistinct (s : Setup) : Prop where
  globals : ∀ c ∈ s.channels, DistinctSubjects c.overrides
  categories : ∀ c ∈ s.categories, DistinctSubjects c.overrides
  nested : ∀ c ∈ s.categories, ∀ channel ∈ c.channels, DistinctSubjects channel.overrides

/-- No id occurs twice in its space. -/
structure Setup.Distinct (s : Setup) : Prop extends s.SubjectsDistinct where
  channelIds : s.channelIds.Nodup
  roleIds : s.roleIds.Nodup

/-- The ids that a category takes. -/
def Category.ids (c : Category) : List Snowflake := c.id :: c.channels.map Channel.id

theorem Setup.channelIds_eq (s : Setup) :
    s.channelIds = s.channels.map Channel.id ++ s.categories.flatMap Category.ids := rfl

namespace Setup.Distinct
variable {s : Setup}

theorem globalIds (h : s.Distinct) : (s.channels.map Channel.id).Nodup :=
  (List.nodup_append.1 h.channelIds).1

theorem takenIds (h : s.Distinct) : (s.categories.flatMap Category.ids).Nodup :=
  (List.nodup_append.1 h.channelIds).2.1

theorem nestedIds (h : s.Distinct) {c : Category} (mem : c ∈ s.categories) :
    (c.channels.map Channel.id).Nodup :=
  (List.nodup_cons.1 ((List.nodup_flatMap.1 h.takenIds).1 c mem)).2

theorem categoryIds (h : s.Distinct) : (s.categories.map Category.id).Nodup := by
  refine List.pairwise_map.2 ((List.nodup_flatMap.1 h.takenIds).2.imp ?_)
  intro a b apart same
  exact apart (List.mem_cons_self (a := a.id)) (same ▸ List.mem_cons_self)

end Setup.Distinct
end GuildPlan
