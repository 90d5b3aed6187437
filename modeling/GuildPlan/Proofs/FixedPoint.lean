import GuildPlan.Proofs.Canonical

/-
  Fixed points. A category that has passed its overrides down has nothing left to pass down,
  which follows from the laws of inheritance. Artifacts are left alone by all passes: what
  stands in one is in order, has inherited all that there is to inherit, and has no predicates,
  so that no host is asked anything.
-/
namespace GuildPlan

variable {σ : Type}

/-- A category whose channels have nothing left to inherit from it. -/
def Category.Inherited (c : Category) : Prop :=
  ∀ channel ∈ c.channels, Saturated c.overrides channel.overrides

theorem Proceedings.inherited {d : Declaration} {rows : List Hearing} {dockets : List Docket}
    {g : Guild} (h : Proceedings d rows dockets g) (distinct : d.setup.SubjectsDistinct) :
    ∀ c ∈ g.categories, c.Inherited := by
  intro c left channel mem
  rw [h.artifact] at left
  have left := mem_sortById.1 left
  rw [List.map_map] at left
  obtain ⟨k, docket, rfl⟩ := List.mem_map.1 left
  have mem := mem_sortById.1 mem
  have same : k.kept.channels = keptChannels k.category.overrides k.hearings := rfl
  rw [same, keptChannels_settled] at mem
  obtain ⟨r, kept, rfl⟩ := List.mem_map.1 mem
  have inCategory := (h.complete k docket).mem_of_admitted kept
  have declared := h.category_mem docket
  have own := distinct.nested _ declared _ inCategory
  exact (saturated_inheritOverrides _ _).perm
    (sortOverrides_perm _).symm (own.inheritOverrides _) (sortOverrides_perm _).symm

/-! ## Passing down a second time -/

theorem map_eq_self {α : Type} {f : α → α} {xs : List α} (each : ∀ x ∈ xs, f x = x) :
    xs.map f = xs :=
  (List.map_congr_left each).trans (List.map_id' xs)

theorem Channel.inheriting_of_saturated {c : Channel} {parents : List Override}
    (inherited : Saturated parents c.overrides) : c.inheriting parents = c := by
  unfold Channel.inheriting
  rw [inheritOverrides_of_saturated inherited]

theorem Category.Inherited.synced {c : Category} (h : c.Inherited) : c.synced = c := by
  unfold Category.synced
  rw [map_eq_self fun channel mem => Channel.inheriting_of_saturated (h channel mem)]

theorem Category.inherited_synced (c : Category) : c.synced.Inherited := by
  intro channel mem
  obtain ⟨declared, -, rfl⟩ := List.mem_map.1 mem
  exact saturated_inheritOverrides c.overrides declared.overrides

/-- Inheritance of permission tables is associative and idempotent, the empty table is neutral on
both sides, the own table has nothing to add to what came of it, and what it allows or denies
stays. So a category has no more to pass down once it has done so, whatever subjects its overrides
and those of its channels repeat. -/
theorem inheritance_laws (own mid parent : PermissionTable) (c : Category) :
    PermissionTable.inheritFrom (PermissionTable.inheritFrom own mid) parent =
      PermissionTable.inheritFrom own (PermissionTable.inheritFrom mid parent) ∧
    PermissionTable.inheritFrom own own = own ∧
    PermissionTable.inheritFrom own ∅ = own ∧
    PermissionTable.inheritFrom ∅ own = own ∧
    PermissionTable.inheritFrom (PermissionTable.inheritFrom own parent) own =
      PermissionTable.inheritFrom own parent ∧
    (∀ key setting, setting ≠ .inherit → own.get? key = some setting →
      (PermissionTable.inheritFrom own parent).get? key = some setting) ∧
    c.synced.synced = c.synced := by
  refine ⟨PermissionTable.inheritFrom_assoc own mid parent, PermissionTable.inheritFrom_self own,
    PermissionTable.inheritFrom_empty own, PermissionTable.empty_inheritFrom own,
    PermissionTable.inheritFrom_own own parent, fun key setting explicit said => ?_, ?_⟩
  · exact PermissionTable.get?_inheritFrom_of_explicit explicit said parent
  · exact c.inherited_synced.synced

namespace Sample

/-- A role that has the id of the visitor. -/
def visitors : Override :=
  { visitor with kind := .role, permissions := (∅ : PermissionTable).insert "VIEW_CHANNEL" .allow }

/-- A category with three overrides for one id, above a channel that has two of them, and above
one that has none. -/
def crowded : Category :=
  upstairs [{ lounge with overrides := [openVisitor, visitors] }, attic]
    [openVisitor, visitors, visitor]

/-- The first override for an id takes what all of them say, the others stay as they are. -/
example : crowded.synced.channels.map (fun c => c.overrides.map fun o => o.permissions.entries) =
    [[[("SEND_MESSAGES", .deny), ("VIEW_CHANNEL", .allow)], [("VIEW_CHANNEL", .allow)]],
      [[("SEND_MESSAGES", .deny), ("VIEW_CHANNEL", .allow)]]] := by decide

theorem inheritance_laws_crowded :
    Setting.deny ≠ .inherit ∧ visitor.permissions.get? "SEND_MESSAGES" = some .deny ∧
    (PermissionTable.inheritFrom visitor.permissions residents.permissions).get? "SEND_MESSAGES" =
      some .deny ∧
    crowded.synced.synced = crowded.synced := by
  have explicit : Setting.deny ≠ .inherit := by decide
  have said : visitor.permissions.get? "SEND_MESSAGES" = some .deny := by decide
  obtain ⟨-, -, -, -, -, stays, passed⟩ :=
    inheritance_laws visitor.permissions openVisitor.permissions residents.permissions crowded
  exact ⟨explicit, said, stays "SEND_MESSAGES" .deny explicit said, passed⟩

end Sample

/-! ## What passes leave alone -/

namespace Channel.Canonical
variable {c : Channel}

theorem ordered (h : c.Canonical) : c.ordered = c := by
  unfold Channel.ordered
  rw [sortOverrides_of_canonical h.overrides]

theorem settled (h : c.Canonical) : c.settled = c := by
  unfold Channel.settled
  rw [← h.inclusion]

theorem shownUnder (h : c.Canonical) {parents : List Override}
    (inherited : Saturated parents c.overrides) : c.shownUnder parents = c := by
  unfold Channel.shownUnder
  rw [inheriting_of_saturated inherited, h.ordered]

end Channel.Canonical

namespace Category.Canonical
variable {c : Category}

theorem prepared (h : c.Canonical) (inherited : c.Inherited) : c.prepared = c := by
  have channels : c.prepared.channels = c.channels := by
    rw [Category.prepared_channels]
    exact map_eq_self fun channel mem => (h.nested channel mem).shownUnder (inherited channel mem)
  have overrides : c.prepared.overrides = c.overrides := sortOverrides_of_canonical h.overrides
  show { c with channels := c.prepared.channels, overrides := c.prepared.overrides } = c
  rw [channels, overrides]

theorem settled (h : c.Canonical) : c.settled = c := by
  unfold Category.settled
  rw [map_eq_self fun channel mem => (h.nested channel mem).settled,
    sortById_of_increasing h.increasing, ← h.inclusion]

end Category.Canonical

theorem Guild.Canonical.sequence {g : Guild} (h : g.Canonical) :
    Guild.sequence g.id g.channels g.roles g.categories = g := by
  unfold Guild.sequence
  rw [map_eq_self fun c mem => (h.eachChannel c mem).settled,
    map_eq_self fun c mem => (h.eachCategory c mem).settled,
    sortById_of_increasing h.channels, sortById_of_increasing h.roles,
    sortById_of_increasing h.categories]

theorem Host.keep_of_admitted (h : Host σ) {passes : Channel → σ → Except Failure Bool × σ}
    (line : Channel → LogLine) {cs : List Channel}
    (admitted : ∀ c ∈ cs, ∀ s, passes c s = (.ok true, s)) (s : σ) :
    h.keep passes line cs s = (.ok cs, s) := by
  induction cs with
  | nil => rfl
  | cons c cs ih =>
    obtain ⟨here, others⟩ := List.forall_mem_cons.1 admitted
    unfold Host.keep
    rw [here s]
    simp only [ih others]

/-- No predicate is asked about global channels that have none. -/
theorem filterGlobal_of_canonical (h : Host σ) {cs : List Channel}
    (canonical : ∀ c ∈ cs, c.Canonical) (s : σ) : filterGlobal h cs s = (⟨.ok 0, cs⟩, s) := by
  have admitted : ∀ c ∈ cs, ∀ s, h.admits c.inclusion c s = (.ok true, s) := by
    intro c mem s
    rw [(canonical c mem).inclusion]
    rfl
  unfold filterGlobal
  rw [h.keep_of_admitted excluded admitted]
  simp only [Nat.sub_self]

theorem filterCategory_of_canonical (h : Host σ) {c : Category} (canonical : c.Canonical)
    (s : σ) : filterCategory h c s = (⟨.ok 0, c⟩, s) := by
  have admitted : ∀ channel ∈ c.channels, ∀ s,
      h.admitsBoth channel.inclusion c.inclusion channel s = (.ok true, s) := by
    intro channel mem s
    rw [(canonical.nested channel mem).inclusion, canonical.inclusion]
    rfl
  unfold filterCategory
  rw [h.keep_of_admitted (excludedFrom c.name) admitted]
  simp only [Nat.sub_self]

theorem filterCategories_of_canonical (h : Host σ) {cs : List Category}
    (canonical : ∀ c ∈ cs, c.Canonical) (s : σ) :
    filterCategories h cs s = (.ok (cs, 0), s) := by
  induction cs with
  | nil => rfl
  | cons c cs ih =>
    obtain ⟨here, others⟩ := List.forall_mem_cons.1 canonical
    unfold filterCategories
    rw [filterCategory_of_canonical h here]
    simp only [ih others]

theorem resolve_of_canonical (h : Host σ) {g : Guild} (canonical : g.Canonical)
    (inherited : ∀ c ∈ g.categories, c.Inherited) (s : σ) :
    resolve h g.declaration s = (.ok g, h.note (compiled g 0) s) := by
  have ordered : g.channels.map Channel.ordered = g.channels :=
    map_eq_self fun c mem => (canonical.eachChannel c mem).ordered
  have prepared : g.categories.map Category.prepared = g.categories :=
    map_eq_self fun c mem => (canonical.eachCategory c mem).prepared (inherited c mem)
  unfold resolve Guild.declaration
  simp only [ordered, prepared, filterGlobal_of_canonical h canonical.eachChannel,
    filterCategories_of_canonical h canonical.eachCategory, canonical.sequence]

/-- Resolving an artifact again gives it back, whatever the host, and asks nothing. -/
theorem artifact_fixed {τ : Type} (h : Host σ) (calls : List Call) (d : Declaration) (s : σ)
    {g : Guild} (built : Context.afterAll (some {}) calls = some d.setup)
    (ok : (resolve h d s).1 = .ok g) (h' : Host τ) (t : τ) :
    resolve h' g.declaration t = (.ok g, h'.note (compiled g 0) t) ∧
      (resolve h'.recorded g.declaration (t, [])).2.2 = [] := by
  have distinct : d.setup.Distinct := .of_calls built
  obtain ⟨rows, dockets, proceedings, _⟩ := resolve_proceedings ok
  have canonical := proceedings.canonical distinct
  have inherited := proceedings.inherited distinct.toSubjectsDistinct
  refine ⟨resolve_of_canonical h' canonical inherited t, ?_⟩
  rw [resolve_of_canonical h'.recorded canonical inherited (t, [])]
  rfl

theorem artifact_fixed_house : ∃ g, (resolve Sample.alternating Sample.declaredHouse 0).1 = .ok g ∧
    resolve Sample.alternating g.declaration 1 =
      (.ok g, Sample.alternating.note (compiled g 0) 1) ∧
    (resolve Sample.alternating.recorded g.declaration (1, [])).2.2 = [] := by
  obtain ⟨g, resolved⟩ := Sample.declaredHouse_resolves
  exact ⟨g, resolved, artifact_fixed Sample.alternating Sample.houseCalls Sample.declaredHouse 0
    Sample.declaredHouse_built resolved Sample.alternating 1⟩

end GuildPlan
