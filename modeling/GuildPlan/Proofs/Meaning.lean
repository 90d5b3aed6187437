import GuildPlan.Proofs.Distinct
import GuildPlan.Proofs.Ordering
import GuildPlan.Proofs.Resolution
import GuildPlan.Proofs.Sample

/-
  What an artifact says of the declaration that it was made of: everything that was declared
  and not refused by a predicate, each thing where it was declared, and nothing else. The
  overrides of a channel in a category are given subject by subject and key by key.
-/
namespace GuildPlan

variable {σ : Type}

/-- What a channel's overrides become under its category's. A subject that only one of them
names has that one's override as it is. Where both name it, the channel's override stays,
with each permission filled that it leaves open. -/
structure Merged (own parents merged : List Override) : Prop where
  distinct : DistinctSubjects merged
  neither : ∀ s, (∀ o ∈ own, o.id ≠ s) → (∀ p ∈ parents, p.id ≠ s) → ∀ m ∈ merged, m.id ≠ s
  ownOnly : ∀ o ∈ own, (∀ p ∈ parents, p.id ≠ o.id) → o ∈ merged
  parentOnly : ∀ p ∈ parents, (∀ o ∈ own, o.id ≠ p.id) → p ∈ merged
  both : ∀ o ∈ own, ∀ p ∈ parents, o.id = p.id → ∃ m ∈ merged,
    m.id = o.id ∧ m.kind = o.kind ∧ m.extra = o.extra ∧
    ∀ key, m.permissions.get? key =
      Setting.filled (o.permissions.get? key) (p.permissions.get? key)

theorem merged_inheritOverrides {own parents : List Override} (left : DistinctSubjects own)
    (right : DistinctSubjects parents) : Merged own parents (inheritOverrides own parents) := by
  have kept := left.inheritOverrides parents
  have found := subject?_inheritOverrides right own
  refine ⟨kept, ?_, ?_, ?_, ?_⟩
  · intro s noOwn noParent
    refine subject?_eq_none_iff.1 ?_
    rw [found, subject?_eq_none_iff.2 noOwn, subject?_eq_none_iff.2 noParent]
    rfl
  · intro o mem noParent
    have here : subject? (inheritOverrides own parents) o.id = some o := by
      rw [found, subject?_eq_none_iff.2 noParent, (subject?_eq_some_iff left).2 ⟨mem, rfl⟩]
      rfl
    exact (mem_of_subject? here).1
  · intro p mem noOwn
    have here : subject? (inheritOverrides own parents) p.id = some p := by
      rw [found, subject?_eq_none_iff.2 noOwn, (subject?_eq_some_iff right).2 ⟨mem, rfl⟩]
      rfl
    exact (mem_of_subject? here).1
  · intro o mem p parent same
    have here : subject? (inheritOverrides own parents) o.id = some (o.inheritFrom p) := by
      rw [found, (subject?_eq_some_iff left).2 ⟨mem, rfl⟩,
        (subject?_eq_some_iff right).2 ⟨parent, same.symm⟩]
      rfl
    exact ⟨o.inheritFrom p, (mem_of_subject? here).1, rfl, rfl, rfl,
      PermissionTable.get?_inheritFrom o.permissions p.permissions⟩

theorem Merged.perm {own parents merged merged' : List Override} (h : Merged own parents merged)
    (p : merged.Perm merged') : Merged own parents merged' where
  distinct := h.distinct.perm p
  neither s noOwn noParent m mem := h.neither s noOwn noParent m (p.mem_iff.2 mem)
  ownOnly o mem noParent := p.mem_iff.1 (h.ownOnly o mem noParent)
  parentOnly o mem noOwn := p.mem_iff.1 (h.parentOnly o mem noOwn)
  both o own q parent same := by
    obtain ⟨m, mem, merges⟩ := h.both o own q parent same
    exact ⟨m, p.mem_iff.1 mem, merges⟩

/-- What is kept of a channel besides its overrides, which have to fit. -/
structure Channel.KeptWith (fits : List Override → Prop) (declared kept : Channel) : Prop where
  id : kept.id = declared.id
  name : kept.name = declared.name
  kind : kept.kind = declared.kind
  options : kept.options = declared.options
  overrides : fits kept.overrides

/-- What is kept of a category: its channels that were admitted, and all of the rest. -/
structure Docket.KeptAs (k : Docket) (kept : Category) : Prop where
  id : kept.id = k.category.id
  name : kept.name = k.category.name
  overrides : k.category.overrides.Perm kept.overrides
  channels : Shuffled
    (fun r channel => r.channel.KeptWith (Merged r.channel.overrides k.category.overrides) channel)
    (k.hearings.filter Hearing.admitted) kept.channels

/-- The artifact holds what was declared and admitted, and nothing else. -/
structure Meaning (d : Declaration) (rows : List Hearing) (dockets : List Docket) (g : Guild) :
    Prop where
  globals : Heard [] none d.setup.channels rows
  categories : dockets.map Docket.category = d.setup.categories
  complete : ∀ k ∈ dockets, k.Complete
  id : g.id = d.guildId
  roles : d.setup.roles.Perm g.roles
  keptChannels : Shuffled (fun r channel => r.channel.KeptWith r.channel.overrides.Perm channel)
    (rows.filter Hearing.admitted) g.channels
  keptCategories : Shuffled Docket.KeptAs dockets g.categories

theorem Channel.keptWith_settled {fits : List Override → Prop} (parents : List Override)
    {c : Channel} (overrides : fits (sortOverrides (inheritOverrides c.overrides parents))) :
    c.KeptWith fits (c.shownUnder parents).settled :=
  ⟨rfl, rfl, rfl, rfl, overrides⟩

theorem Docket.keptAs_settled {k : Docket} (complete : k.Complete)
    (parents : DistinctSubjects k.category.overrides)
    (nested : ∀ c ∈ k.category.channels, DistinctSubjects c.overrides) :
    k.KeptAs k.kept.settled where
  id := rfl
  name := rfl
  overrides := (sortOverrides_perm _).symm
  channels := by
    have sorted := (sortById_perm Channel.id (k.kept.channels.map Channel.settled)).trans
      (.of_eq (keptChannels_settled k.category.overrides k.hearings))
    refine shuffled_of_map_perm (fun r mem => Channel.keptWith_settled _ ?_) sorted
    have declared := complete.mem_of_admitted mem
    exact (merged_inheritOverrides (nested _ declared) parents).perm (sortOverrides_perm _).symm

/-- Whatever a host answers, and however its answers depend on what it was asked before: if
a resolution has a result, then everything that was declared has been heard, and the result
is what the verdicts leave. -/
theorem resolve_meaning (h : Host σ) (d : Declaration) (s : σ) {g : Guild}
    (distinct : d.setup.SubjectsDistinct) (ok : (resolve h d s).1 = .ok g) :
    ∃ rows dockets, Meaning d rows dockets g ∧
      h.transcript d s = rows.flatMap Hearing.verdicts ++ dockets.flatMap Docket.verdicts := by
  obtain ⟨rows, dockets, proceedings, transcript⟩ := resolve_proceedings ok
  refine ⟨rows, dockets, ?_, transcript⟩
  have inSetup := fun k => proceedings.category_mem (k := k)
  obtain ⟨globals, categories, complete, rfl⟩ := proceedings
  refine ⟨globals, categories, complete, rfl, (sortById_perm _ _).symm, ?_, ?_⟩
  · have sorted := (sortById_perm Channel.id ((keptChannels [] rows).map Channel.settled)).trans
      (.of_eq (keptChannels_settled [] rows))
    exact shuffled_of_map_perm
      (fun r _ => Channel.keptWith_settled [] (sortOverrides_perm _).symm) sorted
  · have sorted := sortById_perm Category.id ((dockets.map Docket.kept).map Category.settled)
    refine shuffled_of_map_perm (fun k mem => ?_) (sorted.trans (.of_eq List.map_map))
    have declared := inSetup k mem
    exact Docket.keptAs_settled (complete k mem) (distinct.categories _ declared)
      (distinct.nested _ declared)

theorem resolve_meaning_house : ∃ g, (resolve Sample.alternating Sample.house 0).1 = .ok g ∧
    ∃ rows dockets, Meaning Sample.house rows dockets g ∧
      Sample.alternating.transcript Sample.house 0 =
        rows.flatMap Hearing.verdicts ++ dockets.flatMap Docket.verdicts :=
  ⟨_, rfl, resolve_meaning Sample.alternating Sample.house 0
    Sample.house_distinct.toSubjectsDistinct rfl⟩

end GuildPlan
