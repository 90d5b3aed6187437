import GuildPlan.Proofs.History
import GuildPlan.Proofs.Ordering
import GuildPlan.Proofs.Resolution
import GuildPlan.Proofs.Sample

/-
  Artifacts are canonical. Ids are distinct when they are declared, neither inheritance nor
  a predicate adds one to a list that has it, and so every sort ends in a strict order.
-/
namespace GuildPlan

variable {σ : Type}

/-- A channel as artifacts hold it. -/
structure Channel.Canonical (c : Channel) : Prop where
  overrides : CanonicalOverrides c.overrides
  inclusion : c.inclusion = none

/-- A category as artifacts hold it. -/
structure Category.Canonical (c : Category) : Prop where
  overrides : CanonicalOverrides c.overrides
  inclusion : c.inclusion = none
  increasing : Increasing Channel.id c.channels
  nested : ∀ channel ∈ c.channels, channel.Canonical

/-- An artifact in which everything has one place only, and in which no predicate is left. -/
structure Guild.Canonical (g : Guild) : Prop where
  channels : Increasing Channel.id g.channels
  roles : Increasing Role.id g.roles
  categories : Increasing Category.id g.categories
  ids : g.declaration.setup.channelIds.Nodup
  eachChannel : ∀ c ∈ g.channels, c.Canonical
  eachCategory : ∀ c ∈ g.categories, c.Canonical

theorem Channel.canonical_settled (parents : List Override) {c : Channel}
    (distinct : DistinctSubjects c.overrides) : (c.shownUnder parents).settled.Canonical :=
  ⟨canonical_sortOverrides (distinct.inheritOverrides parents), rfl⟩

/-- Lists that are replaced by parts of them stay distinct as a whole. -/
theorem nodup_flatMap_of_subset {α β : Type} {f g : α → List β} {xs : List α}
    (distinct : (xs.flatMap f).Nodup) (each : ∀ x ∈ xs, (g x).Nodup)
    (part : ∀ x ∈ xs, g x ⊆ f x) : (xs.flatMap g).Nodup := by
  obtain ⟨_, apart⟩ := List.nodup_flatMap.1 distinct
  refine List.nodup_flatMap.2 ⟨each, List.Pairwise.imp_of_mem ?_ apart⟩
  intro x y left right disjoint b inX inY
  exact disjoint (part x left inX) (part y right inY)

theorem flatMap_subset_flatMap {α β : Type} {f g : α → List β} {xs : List α}
    (part : ∀ x ∈ xs, g x ⊆ f x) : xs.flatMap g ⊆ xs.flatMap f := by
  intro b mem
  obtain ⟨x, inXs, inX⟩ := List.mem_flatMap.1 mem
  exact List.mem_flatMap.2 ⟨x, inXs, part x inXs inX⟩

/-- The ids of the channels that are kept are among those that were declared, in their
order. -/
theorem keptChannels_ids {parents : List Override} {category : Option Handle}
    {cs : List Channel} {rows : List Hearing} (heard : Heard parents category cs rows) :
    (((keptChannels parents rows).map Channel.settled).map Channel.id).Sublist
      (cs.map Channel.id) := by
  rw [keptChannels_settled, ← heard.channels, List.map_map, List.map_map]
  exact List.filter_sublist.map (Channel.id ∘ Hearing.channel)

theorem keptChannels_canonical {parents : List Override} {category : Option Handle}
    {cs : List Channel} {rows : List Hearing} (heard : Heard parents category cs rows)
    (distinct : ∀ c ∈ cs, DistinctSubjects c.overrides) :
    ∀ c ∈ (keptChannels parents rows).map Channel.settled, c.Canonical := by
  intro c mem
  rw [keptChannels_settled] at mem
  obtain ⟨r, kept, rfl⟩ := List.mem_map.1 mem
  exact Channel.canonical_settled parents (distinct _ (heard.mem_of_admitted kept))

namespace Docket
variable {k : Docket}

theorem canonical_settled (complete : k.Complete)
    (parents : DistinctSubjects k.category.overrides)
    (nested : ∀ c ∈ k.category.channels, DistinctSubjects c.overrides)
    (ids : (k.category.channels.map Channel.id).Nodup) : k.kept.settled.Canonical where
  overrides := canonical_sortOverrides parents
  inclusion := rfl
  increasing := increasing_sortById ((keptChannels_ids complete).nodup ids)
  nested c mem := keptChannels_canonical complete nested c (mem_sortById.1 mem)

theorem settled_ids_perm (k : Docket) : k.kept.settled.ids.Perm
    (k.category.id :: (k.kept.channels.map Channel.settled).map Channel.id) :=
  ((sortById_perm Channel.id _).map Channel.id).cons k.category.id

/-- The ids that are left of a category are some of its own, in their order but for the
sort. -/
theorem settled_ids_sublist (complete : k.Complete) :
    (k.category.id :: (k.kept.channels.map Channel.settled).map Channel.id).Sublist
      k.category.ids :=
  (keptChannels_ids complete).cons_cons k.category.id

theorem settled_ids_subset (complete : k.Complete) : k.kept.settled.ids ⊆ k.category.ids :=
  List.Subset.trans k.settled_ids_perm.subset (settled_ids_sublist complete).subset

theorem settled_ids_nodup (complete : k.Complete) (ids : k.category.ids.Nodup) :
    k.kept.settled.ids.Nodup :=
  k.settled_ids_perm.nodup_iff.2 ((settled_ids_sublist complete).nodup ids)

end Docket

namespace Proceedings
variable {d : Declaration} {rows : List Hearing} {dockets : List Docket} {g : Guild}

theorem takenIds_eq (h : Proceedings d rows dockets g) :
    d.setup.categories.flatMap Category.ids = dockets.flatMap fun k => k.category.ids := by
  rw [← h.categories, List.flatMap_map]

/-- The ids that an artifact takes, but for the order of the sorts. -/
theorem channelIds_perm (h : Proceedings d rows dockets g) :
    g.declaration.setup.channelIds.Perm
      (((keptChannels [] rows).map Channel.settled).map Channel.id ++
        dockets.flatMap fun k => k.kept.settled.ids) := by
  rw [Setup.channelIds_eq, h.artifact]
  refine ((sortById_perm _ _).map _).append ?_
  refine ((sortById_perm _ _).flatMap_right _).trans ?_
  rw [List.map_map, List.flatMap_map]
  exact .refl _

/-- All ids that are taken in an artifact are distinct, as they were when it was declared. -/
theorem channelIds_nodup (h : Proceedings d rows dockets g) (distinct : d.setup.Distinct) :
    g.declaration.setup.channelIds.Nodup := by
  have globals := keptChannels_ids h.globals
  have declared := distinct.takenIds
  rw [h.takenIds_eq] at declared
  have part : ∀ k ∈ dockets, k.kept.settled.ids ⊆ k.category.ids :=
    fun k mem => k.settled_ids_subset (h.complete k mem)
  have nested : (dockets.flatMap fun k => k.kept.settled.ids).Nodup := by
    refine nodup_flatMap_of_subset declared (fun k mem => ?_) part
    exact k.settled_ids_nodup (h.complete k mem) ((List.nodup_flatMap.1 declared).1 k mem)
  have apart := (List.nodup_append'.1 distinct.channelIds).2.2
  refine h.channelIds_perm.nodup_iff.2 (List.nodup_append'.2 ⟨?_, nested, ?_⟩)
  · exact globals.nodup distinct.globalIds
  · intro id isGlobal isNested
    refine apart (globals.subset isGlobal) ?_
    show id ∈ d.setup.categories.flatMap Category.ids
    rw [h.takenIds_eq]
    exact flatMap_subset_flatMap part isNested

theorem canonical (h : Proceedings d rows dockets g) (distinct : d.setup.Distinct) :
    g.Canonical := by
  have ids := h.channelIds_nodup distinct
  have inSetup := fun k => h.category_mem (k := k)
  obtain ⟨globals, categories, complete, rfl⟩ := h
  refine ⟨?_, increasing_sortById distinct.roleIds, ?_, ids, ?_, ?_⟩
  · exact increasing_sortById ((keptChannels_ids globals).nodup distinct.globalIds)
  · refine increasing_sortById ?_
    have same : ((dockets.map Docket.kept).map Category.settled).map Category.id =
        d.setup.categories.map Category.id := by
      rw [← categories, List.map_map, List.map_map, List.map_map]
      rfl
    rw [same]
    exact distinct.categoryIds
  · intro c mem
    exact keptChannels_canonical globals distinct.globals c (mem_sortById.1 mem)
  · intro c mem
    have mem := mem_sortById.1 mem
    rw [List.map_map] at mem
    obtain ⟨k, left, rfl⟩ := List.mem_map.1 mem
    have declared := inSetup k left
    exact k.canonical_settled (complete k left) (distinct.categories _ declared)
      (distinct.nested _ declared) (distinct.nestedIds declared)

end Proceedings

theorem resolve_canonical {h : Host σ} {d : Declaration} {s : σ} {g : Guild}
    (distinct : d.setup.Distinct) (ok : (resolve h d s).1 = .ok g) : g.Canonical := by
  obtain ⟨rows, dockets, proceedings, _⟩ := resolve_proceedings ok
  exact proceedings.canonical distinct

/-- Whatever is declared by calls, accepted and refused, and whatever a host answers, the
artifact is canonical. So is the artifact of every compilation. -/
theorem artifact_canonical :
    (∀ {σ : Type} (h : Host σ) (calls : List Call) (d : Declaration) (s : σ) (g : Guild),
      Context.afterAll (some {}) calls = some d.setup → (resolve h d s).1 = .ok g →
      g.Canonical) ∧
    ∀ (tree : Tree Script.Source) (entry : String) (m : Script.Machine) (p : Script.Platform)
      (g : Guild), (compile tree entry m p).1 = .ok g → g.Canonical := by
  refine ⟨fun h calls d s g built ok => resolve_canonical (.of_calls built) ok, ?_⟩
  intro tree entry m p g ok
  obtain ⟨d, m', calls, built, ok⟩ := compile_eq_ok ok
  exact resolve_canonical (.of_calls built) ok

theorem artifact_canonical_house :
    (∃ g, (resolve Sample.alternating Sample.declaredHouse 0).1 = .ok g ∧ g.Canonical) ∧
    ∃ g, (compile Sample.houseTree "main.lua" {}).1 = .ok g ∧ g.Canonical := by
  obtain ⟨g, resolved⟩ := Sample.declaredHouse_resolves
  obtain ⟨g', compiled⟩ := Sample.houseTree_compiles
  refine ⟨⟨g, resolved, ?_⟩, g', compiled, artifact_canonical.2 _ _ _ _ _ compiled⟩
  exact artifact_canonical.1 _ Sample.houseCalls _ _ _ Sample.declaredHouse_built resolved

end GuildPlan
