import GuildPlan.Proofs.Distinct
import GuildPlan.Proofs.Ordering
import GuildPlan.Proofs.Resolution
import GuildPlan.Proofs.Sample

/-
  The order of declarations does not matter, as long as a host's answers depend on nothing
  but the predicate and the channel. Channels of rearranged declarations are shown alike, so
  the same of them are kept, and the sorts put the rest of the differences right.
-/
namespace GuildPlan

variable {σ : Type}

/-! ## Hosts without memory -/

/-- The answers of a host depend on nothing but the predicate and the channel. -/
def Host.Stateless (h : Host σ) : Prop :=
  ∀ handle c s t, (h.test handle c s).1 = (h.test handle c t).1

/-- The host that gives certain answers and keeps nothing. -/
def Host.answering (answer : Handle → Channel → Except Failure Bool) : Host Unit where
  test handle c s := (answer handle c, s)
  note _ s := s

theorem Host.Stateless.simulates {h : Host σ} (stateless : h.Stateless) (s : σ) :
    h.Simulates (.answering fun handle c => (h.test handle c s).1) fun _ => () where
  test handle c t := Prod.ext (stateless handle c s t) rfl
  note _ _ := rfl

variable {answer : Handle → Channel → Except Failure Bool}

/-- What a channel's own predicate and its category's together say of it. -/
def judged (answer : Handle → Channel → Except Failure Bool) (category : Option Handle)
    (c : Channel) : Except Failure Bool :=
  ((Host.answering answer).admitsBoth c.inclusion category c ()).1

theorem judged_none (c : Channel) :
    ((Host.answering answer).admits c.inclusion c ()).1 = judged answer none c := by
  unfold judged Host.admitsBoth
  rcases (Host.answering answer).admits c.inclusion c () with ⟨_ | own, s⟩
  · rfl
  · simp [Host.admits]

/-- The predicates give an answer on every channel of a list. -/
def Decided (judge : Channel → Except Failure Bool) (cs : List Channel) : Prop :=
  ∀ c ∈ cs, ∃ b, judge c = .ok b

/-- The channels that are judged fit to stay. -/
def fit (judge : Channel → Except Failure Bool) (cs : List Channel) : List Channel :=
  cs.filter fun c => match judge c with
    | .ok b => b
    | .error _ => false

theorem Decided.perm (judge : Channel → Except Failure Bool) {xs ys : List Channel}
    (p : xs.Perm ys) : Decided judge xs ↔ Decided judge ys :=
  forall_congr' fun _ => imp_congr_left p.mem_iff

theorem fit_perm (judge : Channel → Except Failure Bool) {xs ys : List Channel}
    (p : xs.Perm ys) : (fit judge xs).Perm (fit judge ys) := p.filter _

section Passes
variable {h : Host Unit} {passes : Channel → Unit → Except Failure Bool × Unit}
variable {judge : Channel → Except Failure Bool}

theorem keep_of_decided (same : ∀ c, (passes c ()).1 = judge c) (line : Channel → LogLine)
    {cs : List Channel} (decided : Decided judge cs) :
    h.keep passes line cs () = (.ok (fit judge cs), ()) := by
  induction cs with
  | nil => rfl
  | cons c cs ih =>
    obtain ⟨⟨b, here⟩, others⟩ := List.forall_mem_cons.1 decided
    have found : passes c () = (.ok b, ()) := Prod.ext ((same c).trans here) rfl
    have rest := ih others
    unfold Host.keep fit
    rw [found, List.filter_cons]
    cases b with
    | true => simp only [here, rest]; rfl
    | false => simp only [here]; exact rest

theorem keep_of_not_decided (same : ∀ c, (passes c ()).1 = judge c) (line : Channel → LogLine)
    {cs : List Channel} (undecided : ¬Decided judge cs) :
    ∃ e, h.keep passes line cs () = (.error e, ()) := by
  induction cs with
  | nil => exact absurd (List.forall_mem_nil _) undecided
  | cons c cs ih =>
    unfold Host.keep
    cases here : judge c with
    | error e =>
      have found : passes c () = (.error e, ()) := Prod.ext ((same c).trans here) rfl
      exact ⟨e, by rw [found]⟩
    | ok b =>
      have others : ¬Decided judge cs := fun decided =>
        undecided (List.forall_mem_cons.2 ⟨⟨b, here⟩, decided⟩)
      obtain ⟨e, rest⟩ := ih others
      have found : passes c () = (.ok b, ()) := Prod.ext ((same c).trans here) rfl
      rw [found]
      cases b with
      | true => exact ⟨e, by simp only [rest]⟩
      | false => exact ⟨e, rest⟩

end Passes

/-- The category with the channels in it that its predicates and their own let pass. -/
def Category.fitting (answer : Handle → Channel → Except Failure Bool) (c : Category) : Category :=
  { c.prepared with channels := fit (judged answer c.prepared.inclusion) c.prepared.channels }

def Category.Decided (answer : Handle → Channel → Except Failure Bool) (c : Category) : Prop :=
  GuildPlan.Decided (judged answer c.prepared.inclusion) c.prepared.channels

theorem filterCategory_of_decided {c : Category} (decided : c.Decided answer) :
    ∃ n, filterCategory (.answering answer) c.prepared () = (⟨.ok n, c.fitting answer⟩, ()) := by
  refine ⟨c.prepared.channels.length - (c.fitting answer).channels.length, ?_⟩
  unfold filterCategory
  rw [keep_of_decided (fun _ => rfl) _ decided]
  rfl

theorem filterCategory_of_not_decided {c : Category} (undecided : ¬c.Decided answer) :
    ∃ e left, filterCategory (.answering answer) c.prepared () = (⟨.error e, left⟩, ()) := by
  obtain ⟨e, failed⟩ := keep_of_not_decided (h := .answering answer) (fun _ => rfl)
    (excludedFrom c.prepared.name) undecided
  refine ⟨e, { c.prepared with channels := [] }, ?_⟩
  unfold filterCategory
  rw [failed]

theorem filterCategories_of_decided {cs : List Category}
    (decided : ∀ c ∈ cs, c.Decided answer) :
    ∃ n, filterCategories (.answering answer) (cs.map Category.prepared) () =
      (.ok (cs.map (Category.fitting answer), n), ()) := by
  induction cs with
  | nil => exact ⟨0, rfl⟩
  | cons c cs ih =>
    obtain ⟨here, others⟩ := List.forall_mem_cons.1 decided
    obtain ⟨n, first⟩ := filterCategory_of_decided here
    obtain ⟨m, rest⟩ := ih others
    refine ⟨n + m, ?_⟩
    rw [List.map_cons, filterCategories, first]
    simp only [rest, List.map_cons]

theorem filterCategories_of_not_decided {cs : List Category}
    (undecided : ¬∀ c ∈ cs, c.Decided answer) :
    ∃ e, filterCategories (.answering answer) (cs.map Category.prepared) () = (.error e, ()) := by
  induction cs with
  | nil => exact absurd (List.forall_mem_nil _) undecided
  | cons c cs ih =>
    rw [List.map_cons, filterCategories]
    by_cases here : c.Decided answer
    · obtain ⟨n, first⟩ := filterCategory_of_decided here
      obtain ⟨e, rest⟩ := ih fun others => undecided (List.forall_mem_cons.2 ⟨here, others⟩)
      exact ⟨e, by rw [first]; simp only [rest]⟩
    · obtain ⟨e, left, first⟩ := filterCategory_of_not_decided here
      exact ⟨e, by rw [first]⟩

/-- The predicates give an answer on every channel of a setup. -/
structure Setup.Decided (answer : Handle → Channel → Except Failure Bool) (s : Setup) : Prop where
  globals : GuildPlan.Decided (judged answer none) (s.channels.map Channel.ordered)
  categories : ∀ c ∈ s.categories, c.Decided answer

/-- The artifact that certain answers leave of a declaration. -/
def Declaration.artifact (answer : Handle → Channel → Except Failure Bool) (d : Declaration) :
    Guild :=
  Guild.sequence d.guildId (fit (judged answer none) (d.setup.channels.map Channel.ordered))
    d.setup.roles (d.setup.categories.map (Category.fitting answer))

theorem resolve_of_decided {d : Declaration} (decided : d.setup.Decided answer) :
    (resolve (.answering answer) d ()).1 = .ok (d.artifact answer) := by
  obtain ⟨n, categories⟩ := filterCategories_of_decided decided.categories
  unfold resolve filterGlobal
  rw [keep_of_decided judged_none _ decided.globals]
  simp only [categories]
  rfl

theorem resolve_of_not_decided {d : Declaration} (undecided : ¬d.setup.Decided answer) :
    ∃ e, (resolve (.answering answer) d ()).1 = .error e := by
  unfold resolve filterGlobal
  by_cases globals : Decided (judged answer none) (d.setup.channels.map Channel.ordered)
  · obtain ⟨e, failed⟩ := filterCategories_of_not_decided fun categories =>
      undecided ⟨globals, categories⟩
    rw [keep_of_decided judged_none _ globals]
    exact ⟨e, by simp only [failed]⟩
  · obtain ⟨e, failed⟩ := keep_of_not_decided (h := .answering answer) judged_none excluded globals
    rw [failed]
    exact ⟨e, rfl⟩

/-! ## Rearranged declarations -/

/-- The same channel, with its overrides in some other order. -/
structure Channel.Rearranged (c c' : Channel) : Prop where
  id : c.id = c'.id
  name : c.name = c'.name
  kind : c.kind = c'.kind
  options : c.options = c'.options
  inclusion : c.inclusion = c'.inclusion
  overrides : c.overrides.Perm c'.overrides

/-- The same category, with its overrides and its channels in some other order, and the
overrides of these channels as well. -/
structure Category.Rearranged (c c' : Category) : Prop where
  id : c.id = c'.id
  name : c.name = c'.name
  inclusion : c.inclusion = c'.inclusion
  overrides : c.overrides.Perm c'.overrides
  channels : Shuffled Channel.Rearranged c.channels c'.channels

/-- The same declarations in some other order, at every level. -/
structure Setup.Rearranged (s s' : Setup) : Prop where
  channels : Shuffled Channel.Rearranged s.channels s'.channels
  roles : s.roles.Perm s'.roles
  categories : Shuffled Category.Rearranged s.categories s'.categories

/-- Predicates are shown the same channel. -/
theorem Channel.Rearranged.shownUnder {c c' : Channel} {parents parents' : List Override}
    (h : c.Rearranged c') (own : DistinctSubjects c.overrides)
    (distinct : DistinctSubjects parents) (p : parents.Perm parents') :
    c.shownUnder parents = c'.shownUnder parents' := by
  have same := sortOverrides_eq_of_perm (own.inheritOverrides parents)
    (inheritOverrides_perm own distinct h.overrides p)
  unfold Channel.shownUnder inheriting ordered
  simp only [h.id, h.name, h.kind, h.options, h.inclusion, same]

theorem shownUnder_perm {cs cs' : List Channel} {parents parents' : List Override}
    (h : Shuffled Channel.Rearranged cs cs') (own : ∀ c ∈ cs, DistinctSubjects c.overrides)
    (distinct : DistinctSubjects parents) (p : parents.Perm parents') :
    (cs.map (Channel.shownUnder parents)).Perm (cs'.map (Channel.shownUnder parents')) :=
  h.map_perm fun c mem _ same => same.shownUnder (own c mem) distinct p

/-- What is left of channels with distinct ids is sorted in one way only. -/
theorem sortById_fit (judge : Channel → Except Failure Bool) {cs cs' : List Channel}
    (p : cs.Perm cs') (distinct : (cs.map Channel.id).Nodup) :
    sortById Channel.id ((fit judge cs).map Channel.settled) =
      sortById Channel.id ((fit judge cs').map Channel.settled) := by
  refine sortById_eq_of_perm ?_ ((fit_perm judge p).map Channel.settled)
  rw [List.map_map]
  exact (List.filter_sublist.map Channel.id).nodup distinct

theorem shownUnder_ids (parents : List Override) (cs : List Channel) :
    (cs.map (Channel.shownUnder parents)).map Channel.id = cs.map Channel.id :=
  List.map_map

namespace Category.Rearranged
variable {c c' : Category}

theorem prepared_channels (h : c.Rearranged c') (parents : DistinctSubjects c.overrides)
    (nested : ∀ channel ∈ c.channels, DistinctSubjects channel.overrides) :
    c.prepared.channels.Perm c'.prepared.channels := by
  rw [Category.prepared_channels, Category.prepared_channels]
  exact shownUnder_perm h.channels nested parents h.overrides

theorem decided (h : c.Rearranged c') (parents : DistinctSubjects c.overrides)
    (nested : ∀ channel ∈ c.channels, DistinctSubjects channel.overrides) :
    c.Decided answer ↔ c'.Decided answer := by
  have same : c.prepared.inclusion = c'.prepared.inclusion := h.inclusion
  unfold Category.Decided
  rw [same]
  exact Decided.perm _ (h.prepared_channels parents nested)

theorem settled (h : c.Rearranged c') (parents : DistinctSubjects c.overrides)
    (nested : ∀ channel ∈ c.channels, DistinctSubjects channel.overrides)
    (ids : (c.channels.map Channel.id).Nodup) :
    (c.fitting answer).settled = (c'.fitting answer).settled := by
  have inclusion : c.prepared.inclusion = c'.prepared.inclusion := h.inclusion
  have overrides : c.prepared.overrides = c'.prepared.overrides :=
    sortOverrides_eq_of_perm parents h.overrides
  have id : c.prepared.id = c'.prepared.id := h.id
  have name : c.prepared.name = c'.prepared.name := h.name
  have channels := sortById_fit (judged answer c.prepared.inclusion)
    (h.prepared_channels parents nested)
    (by rw [Category.prepared_channels, shownUnder_ids]; exact ids)
  unfold Category.settled fitting
  simp only [id, name, overrides, ← inclusion, channels]

end Category.Rearranged

namespace Setup.Rearranged
variable {s s' : Setup}

theorem globals (h : s.Rearranged s') (distinct : s.SubjectsDistinct) :
    (s.channels.map Channel.ordered).Perm (s'.channels.map Channel.ordered) := by
  have none : DistinctSubjects [] := List.nodup_nil
  exact shownUnder_perm h.channels distinct.globals none (.refl [])

theorem decided (h : s.Rearranged s') (distinct : s.SubjectsDistinct) :
    s.Decided answer ↔ s'.Decided answer := by
  have globals := Decided.perm (judged answer none) (h.globals distinct)
  -- The categories correspond only up to order, so the propositions about them are compared
  -- as lists.
  have same : (s.categories.map (Category.Decided answer)).Perm
      (s'.categories.map (Category.Decided answer)) :=
    h.categories.map_perm fun c mem _ same =>
      propext (same.decided (distinct.categories c mem) (distinct.nested c mem))
  have categories : (∀ c ∈ s.categories, c.Decided answer) ↔
      ∀ c ∈ s'.categories, c.Decided answer := by
    have all : (∀ p ∈ s.categories.map (Category.Decided answer), p) ↔
        ∀ p ∈ s'.categories.map (Category.Decided answer), p :=
      forall_congr' fun _ => imp_congr_left same.mem_iff
    rw [List.forall_mem_map, List.forall_mem_map] at all
    exact all
  exact ⟨fun d => ⟨globals.1 d.globals, categories.1 d.categories⟩,
    fun d => ⟨globals.2 d.globals, categories.2 d.categories⟩⟩

end Setup.Rearranged

theorem Declaration.artifact_rearranged {d d' : Declaration} (guild : d.guildId = d'.guildId)
    (h : d.setup.Rearranged d'.setup) (distinct : d.setup.Distinct) :
    d.artifact answer = d'.artifact answer := by
  have subjects := distinct.toSubjectsDistinct
  have channels := sortById_fit (judged answer none) (h.globals subjects)
    (by rw [List.map_map]; exact distinct.globalIds)
  have roles : sortById Role.id d.setup.roles = sortById Role.id d'.setup.roles :=
    sortById_eq_of_perm distinct.roleIds h.roles
  have left : ((d.setup.categories.map (Category.fitting answer)).map Category.settled).Perm
      ((d'.setup.categories.map (Category.fitting answer)).map Category.settled) := by
    rw [List.map_map, List.map_map]
    exact h.categories.map_perm fun c mem _ same =>
      same.settled (distinct.categories c mem) (distinct.nested c mem) (distinct.nestedIds mem)
  have ids : (((d.setup.categories.map (Category.fitting answer)).map Category.settled).map
      Category.id).Nodup := by
    rw [List.map_map, List.map_map]
    exact distinct.categoryIds
  have categories := sortById_eq_of_perm ids left
  unfold Declaration.artifact Guild.sequence
  rw [guild, channels, roles, categories]

/-- Rearranged declarations either both fail to resolve or have the same artifact. -/
theorem resolve_rearranged (h : Host σ) (stateless : h.Stateless) (d d' : Declaration)
    (guild : d.guildId = d'.guildId) (rearranged : d.setup.Rearranged d'.setup)
    (distinct : d.setup.Distinct) (s s' : σ) :
    (∃ e e', (resolve h d s).1 = .error e ∧ (resolve h d' s').1 = .error e') ∨
      ∃ g, (resolve h d s).1 = .ok g ∧ (resolve h d' s').1 = .ok g := by
  -- From every state the host answers as it would from `s`, so both runs are runs of one
  -- host without states.
  have sim := stateless.simulates s
  have plain (d : Declaration) (t : σ) : (resolve h d t).1 =
      (resolve (.answering fun handle c => (h.test handle c s).1) d ()).1 := by
    rw [sim.resolve d t]
    rfl
  rw [plain, plain]
  by_cases decided : d.setup.Decided fun handle c => (h.test handle c s).1
  · right
    refine ⟨d.artifact _, resolve_of_decided decided, ?_⟩
    rw [Declaration.artifact_rearranged guild rearranged distinct]
    exact resolve_of_decided ((rearranged.decided distinct.toSubjectsDistinct).1 decided)
  · left
    obtain ⟨e, failed⟩ := resolve_of_not_decided decided
    obtain ⟨e', failed'⟩ := resolve_of_not_decided fun decided' =>
      decided ((rearranged.decided distinct.toSubjectsDistinct).2 decided')
    exact ⟨e, e', failed, failed'⟩

namespace Sample

/-- The house, declared the other way round at every level. -/
def rearrangedHouse : Declaration :=
  { house with
    setup :=
      { channels := [{ garden with overrides := [residents, visitor] }]
        roles := house.setup.roles.reverse
        categories := [upstairs [attic, lounge] [residents, visitor]] } }

/-- A host that lets channels pass on which there are overrides for two subjects. -/
def byOverrides : Host Nat where
  test _ c n := (.ok (c.overrides.length == 2), n + 1)
  note _ n := n

theorem garden_rearranged : garden.Rearranged { garden with overrides := [residents, visitor] } :=
  ⟨rfl, rfl, rfl, rfl, rfl, .swap _ _ _⟩

theorem lounge_rearranged : lounge.Rearranged lounge := ⟨rfl, rfl, rfl, rfl, rfl, .refl _⟩

theorem attic_rearranged : attic.Rearranged attic := ⟨rfl, rfl, rfl, rfl, rfl, .refl _⟩

theorem upstairs_rearranged : (upstairs [lounge, attic] [visitor, residents]).Rearranged
    (upstairs [attic, lounge] [residents, visitor]) where
  id := rfl
  name := rfl
  inclusion := rfl
  overrides := .swap _ _ _
  channels := ⟨_, .cons lounge_rearranged (.cons attic_rearranged .nil), .swap _ _ _⟩

theorem house_rearranged : house.setup.Rearranged rearrangedHouse.setup where
  channels := ⟨_, .cons garden_rearranged .nil, .refl _⟩
  roles := (List.reverse_perm _).symm
  categories := ⟨_, .cons upstairs_rearranged .nil, .refl _⟩

end Sample

theorem resolve_rearranged_house :
    (∃ e e', (resolve Sample.byOverrides Sample.house 0).1 = .error e ∧
      (resolve Sample.byOverrides Sample.rearrangedHouse 9).1 = .error e') ∨
    ∃ g, (resolve Sample.byOverrides Sample.house 0).1 = .ok g ∧
      (resolve Sample.byOverrides Sample.rearrangedHouse 9).1 = .ok g :=
  resolve_rearranged Sample.byOverrides (fun _ _ _ _ => rfl) Sample.house Sample.rearrangedHouse
    rfl Sample.house_rearranged Sample.house_distinct 0 9

end GuildPlan
