import GuildPlan.Proofs.Predicates
import GuildPlan.Proofs.Reading

/-
  Handles and the functions that scripts attach. A declaration has a handle exactly where its
  argument held a function, and the handle denotes that very function, whatever happens later.
  No other value gets there as a handle: what a script makes to look like a marker is refused
  when it is converted. So a machine that resolves what was declared on it never meets a
  handle that it does not know, and runs what was attached.
-/
namespace GuildPlan.Script

/-! ## Attached functions -/

def Value.function? : Value → Option FunctionRef
  | .function f => some f
  | _ => none

def Value.table? : Value → Option TableRef
  | .table r => some r
  | _ => none

namespace Heap

/-- The function that a table itself holds under `include`. -/
def inclusion? (h : Heap) (t : TableRef) : Option FunctionRef :=
  ((h.table t).get (.text "include")).function?

/-- The table at an index, counting from zero, of the list that a table holds under
`channels`. -/
def nested? (h : Heap) (t : TableRef) (n : Nat) : Option TableRef :=
  ((h.table t).get (.text "channels")).table?.bind fun list =>
    ((h.table list).get (.int (n + 1 : Nat))).table?

end Heap

/-- A handle stands for what a table holds under `include`: it denotes the function that is
there, and without a handle there is none. -/
def Attached (h : Heap) (g : Registry) (t : TableRef) : Option Handle → Prop
  | some handle => ∃ f, h.inclusion? t = some f ∧ g.get? handle = some f
  | none => h.inclusion? t = none

/-- What an accepted declaration attaches is what its argument held, and in a category what
the tables of its channels held. -/
def Accepted.Attached (a : Accepted) (g : Registry) : Prop :=
  match a.entity with
  | .channel c => Script.Attached a.heap g a.argument c.inclusion
  | .category k => Script.Attached a.heap g a.argument k.inclusion ∧
    ∀ n (inside : n < k.channels.length), ∃ t, a.heap.nested? a.argument n = some t ∧
      Script.Attached a.heap g t k.channels[n].inclusion
  | .role _ | .builder _ => True

variable {h : Heap} {g : Registry}

theorem word_include : Word "include" :=
  word_of_head (show "include".toList = 'i' :: "nclude".toList from rfl) (by decide) rfl

theorem word_channels : Word "channels" :=
  word_of_head (show "channels".toList = 'c' :: "hannels".toList from rfl) (by decide) rfl

/-- What is read as a predicate is the function that the table holds. -/
theorem attached_of_predicate {r : Schema.Record} {t : TableRef} {inclusion : Option Handle}
    (stands : Stands h g (.table t) (.obj r.members))
    (ok : r.predicate "include" = .ok inclusion) : Attached h g t inclusion := by
  unfold Schema.Record.predicate Schema.Record.get? at ok
  cases found : r.members.get? "include" with
  | none =>
    rw [found] at ok
    cases ok
    show ((h.table t).get (.text "include")).function? = none
    rw [stands.no_member found]
    rfl
  | some j =>
    have here := stands.member word_include found
    rw [found, Option.filter_some] at ok
    cases null : j.isNull with
    | true =>
      rw [null] at ok
      cases ok
      show ((h.table t).get (.text "include")).function? = none
      -- What became null is nil or null in the table, and neither is a function.
      cases j <;> cases null
      generalize (h.table t).get (.text "include") = v at here
      cases here <;> rfl
    | false =>
      rw [null] at ok
      cases marks : j.marker? with
      | none =>
        simp [marks] at ok
        cases ok
      | some handle =>
        simp [marks] at ok
        cases ok
        obtain ⟨f, held, denoted⟩ := here.of_marker marks
        refine ⟨f, ?_, denoted⟩
        show ((h.table t).get (.text "include")).function? = some f
        rw [held]
        rfl

/-- A channel is read from a table: a function's marker has no id. -/
theorem table_of_channelOf {v : Value} {r : Schema.Record} {j : Json} {c : Channel}
    (stands : Stands h g v j) (read : Schema.ChannelOf r j c) :
    ∃ t, v = .table t ∧ Stands h g (.table t) (.obj r.members) := by
  obtain ⟨rfl, ⟨_, identified⟩, _⟩ := read
  obtain ⟨_, members⟩ := r
  cases stands with
  | @record t _ source unreserved complete there named each =>
    exact ⟨t, rfl, .record source unreserved complete there named each⟩
  | function => cases identified

/-- The channels of a category are read from the tables of its list. -/
theorem nested_of_list {r : Schema.Record} {t : TableRef} {vs : List Json} {cs : List Channel}
    (stands : Stands h g (.table t) (.obj r.members)) (listed : r.list "channels" = .ok vs)
    (read : List.Forall₂ (fun v c => ∃ r, Schema.ChannelOf r v c) vs cs)
    (n : Nat) (inside : n < cs.length) : ∃ c r v, h.nested? t n = some c ∧
      Stands h g (.table c) (.obj r.members) ∧ Schema.ChannelOf r v cs[n] := by
  have within : n < vs.length := read.length_eq ▸ inside
  obtain ⟨r', of⟩ := read.get within inside
  cases vs with
  | nil => exact absurd within (Nat.not_lt_zero n)
  | cons v vs =>
    have here := stands.member word_channels (Schema.Record.get?_of_list listed)
    generalize held : (h.table t).get (.text "channels") = list at here
    cases here with
    | @list l _ each =>
      obtain ⟨c, item, whole⟩ := table_of_channelOf (each n within) of
      refine ⟨c, r', _, ?_, whole, of⟩
      unfold Heap.nested?
      rw [held]
      show ((h.table l).get (.int (n + 1 : Nat))).table? = some c
      rw [item]
      rfl

theorem Accepted.attached_of_read {c : Capability} {t : TableRef} {j : Json} {entity : Entity}
    (stands : Stands h g (.table t) j) (ok : c.read j = .ok entity) :
    Accepted.Attached ⟨entity, h, t⟩ g := by
  obtain ⟨_, _, channel, read, rfl⟩ | ⟨_, category, read, rfl⟩ | ⟨_, rfl⟩ | ⟨_, rfl⟩ :=
    Capability.read_eq_ok ok
  · obtain ⟨r, of⟩ := Schema.channelOf_readChannel read
    exact attached_of_predicate (of.whole ▸ stands) of.inclusion
  · obtain ⟨r, rfl, inclusion, _, vs, listed, each⟩ := Schema.categoryOf_readCategory read
    refine ⟨attached_of_predicate stands inclusion, fun n inside => ?_⟩
    obtain ⟨t', r', _, there, stands', of⟩ := nested_of_list stands listed each n inside
    exact ⟨t', there, attached_of_predicate stands' of.inclusion⟩
  all_goals trivial

/-- What was accepted was read from what stands for its argument. -/
theorem read_of_accepted? {r : ContextRef} {m : Machine} {e : Event} {a : Accepted}
    (declares : e.accepted? r m = some a) : ∃ c j,
      Stands a.heap (m.after e).registry (.table a.argument) j ∧
      Capability.read c j = .ok a.entity := by
  cases e with
  | called c context arg =>
    obtain ⟨rfl, records, ok⟩ := accepted?_isSome_iff.1 (Option.isSome_of_eq_some declares)
    have reply := runCapability_reply c (some r) arg m
    show ∃ c' j, Stands a.heap (runCapability c (some r) arg m).2.registry _ j ∧ _
    generalize ran : runCapability c (some r) arg m = result at reply ok
    cases reply with
    | refused => cases ok
    | @declared _ t json _ _ _ _ given declared =>
      have read := (Capability.declare_eq_ok declared).1
      rw [accepted?_of_ok r (congrArg Prod.fst ran) given read, if_pos ⟨rfl, records⟩] at declares
      cases declares
      exact ⟨c, json, (toJson_becomes given).stands, read⟩
  | _ => cases declares

/-- And so it is later on, whatever happens. -/
theorem read_of_accepted {r : ContextRef} {m : Machine} {events : List Event} :
    ∀ a ∈ accepted r m events, ∃ c j,
      Stands a.heap (m.afterAll events).registry (.table a.argument) j ∧
      Capability.read c j = .ok a.entity := by
  -- Induction on the events: the registry of the moment lies within every later one.
  induction events generalizing m with
  | nil => exact List.forall_mem_nil _
  | cons e events ih =>
    intro a mem
    rcases List.mem_append.1 mem with here | later
    · obtain ⟨c, j, stands, read⟩ := read_of_accepted? (Option.mem_toList.1 here)
      exact ⟨c, j, stands.mono ((m.after e).afterAll_registry events), read⟩
    · exact ih a later

/-! ## What a resolution runs -/

namespace Accepted

/-- What is run about a global channel: the function that its table held. -/
def globalRuns (a : Accepted) : List Asked :=
  match a.entity with
  | .channel c => (a.heap.inclusion? a.argument).toList.map (·, c.shownUnder [])
  | _ => []

/-- What is run about the channels of a category: the function that the channel's own table
held, and then the one that the category's table held. -/
def nestedRuns (a : Accepted) : List Asked :=
  match a.entity with
  | .category k => k.channels.zipIdx.flatMap fun (c, n) =>
    (((a.heap.nested? a.argument n).bind a.heap.inclusion?).toList ++
      (a.heap.inclusion? a.argument).toList).map (·, c.shownUnder k.overrides)
  | _ => []

end Accepted

/-- What is run about a session's setup: what was attached to its global channels, and then
what was attached to its categories and their channels. -/
def Session.runs (k : Session) : List Asked :=
  k.accepted.flatMap Accepted.globalRuns ++ k.accepted.flatMap Accepted.nestedRuns

theorem Attached.answers {t : TableRef} {inclusion : Option Handle}
    (attached : Attached h g t inclusion) (c : Channel) :
    g.Answers (inclusion.toList.map (⟨·, c⟩)) ((h.inclusion? t).toList.map (·, c)) := by
  cases inclusion with
  | none =>
    rw [show h.inclusion? t = none from attached]
    exact .nil
  | some handle =>
    obtain ⟨f, held, denoted⟩ := attached
    rw [held]
    exact .cons ⟨denoted, rfl⟩ .nil

theorem Registry.Answers.append {qs qs' : List Question} {asked asked' : List Asked}
    (first : g.Answers qs asked) (second : g.Answers qs' asked') :
    g.Answers (qs ++ qs') (asked ++ asked') := List.rel_append first second

/-- Lists of questions for things that correspond to each other. -/
theorem Registry.Answers.flatMap {α β : Type} {questions : α → List Question}
    {asked : β → List Asked} {xs : List α} {ys : List β}
    (each : List.Forall₂ (fun x y => g.Answers (questions x) (asked y)) xs ys) :
    g.Answers (xs.flatMap questions) (ys.flatMap asked) :=
  List.rel_flatMap each fun _ _ => id

theorem Accepted.Attached.globalRuns {a : Accepted} (attached : a.Attached g) :
    g.Answers (a.entity.channel?.toList.flatMap (Channel.questions [] none)) a.globalRuns := by
  unfold Accepted.Attached at attached
  unfold Accepted.globalRuns
  cases entity : a.entity with
  | channel c =>
    rw [entity] at attached
    have asks : (Entity.channel c).channel?.toList.flatMap (Channel.questions [] none) =
        c.inclusion.toList.map (⟨·, c.shownUnder []⟩) := by
      simp [Entity.channel?, Channel.questions]
    rw [asks]
    exact Script.Attached.answers attached _
  | _ => exact .nil

theorem Accepted.Attached.nestedRuns {a : Accepted} (attached : a.Attached g) :
    g.Answers (a.entity.category?.toList.flatMap Category.questions) a.nestedRuns := by
  unfold Accepted.Attached at attached
  unfold Accepted.nestedRuns
  cases entity : a.entity with
  | category k =>
    rw [entity] at attached
    obtain ⟨own, nested⟩ := attached
    have asks : (Entity.category k).category?.toList.flatMap Category.questions =
        k.channels.flatMap (Channel.questions k.overrides k.inclusion) := by
      simp [Entity.category?, Category.questions]
    rw [asks]
    -- Channel by channel: the one at an index was read from the table at this index.
    refine .flatMap (List.forall₂_iff_get.2 ⟨by simp, fun n inside _ => ?_⟩)
    obtain ⟨t, there, each⟩ := nested n inside
    simp only [List.get_eq_getElem, List.getElem_zipIdx, Nat.zero_add, there, Option.bind_some]
    unfold Channel.questions
    rw [List.map_append, List.map_append]
    exact (each.answers _).append (own.answers _)
  | _ => exact .nil

theorem Session.answers {k : Session} (attached : ∀ a ∈ k.accepted, a.Attached g) (id : String) :
    g.Answers (Declaration.questions ⟨id, k.setup⟩) k.runs := by
  have globals : k.setup.channels.flatMap (Channel.questions [] none) =
      k.accepted.flatMap fun a => a.entity.channel?.toList.flatMap (Channel.questions [] none) := by
    simp [Session.setup, Setup.ofEntities, List.filterMap_eq_flatMap_toList, List.flatMap_assoc,
      List.flatMap_map]
  have categories : k.setup.categories.flatMap Category.questions =
      k.accepted.flatMap fun a => a.entity.category?.toList.flatMap Category.questions := by
    simp [Session.setup, Setup.ofEntities, List.filterMap_eq_flatMap_toList, List.flatMap_assoc,
      List.flatMap_map]
  unfold Declaration.questions Session.runs
  rw [globals, categories]
  refine .append (.flatMap (List.forall₂_same.2 fun a mem => ?_))
    (.flatMap (List.forall₂_same.2 fun a mem => ?_))
  · exact (attached a mem).globalRuns
  · exact (attached a mem).nestedRuns

/-- What a machine knows of a session's setup. Everything that was accepted is attached, no
handle in it is unknown, and a resolution of the setup runs what was attached and nothing else:
a first part of it, and all of it if the resolution has a result. -/
structure Session.Answerable (k : Session) (m : Machine) : Prop where
  attached : ∀ a ∈ k.accepted, a.Attached m.registry
  known : ∀ id handle, (resolve Machine.host ⟨id, k.setup⟩ m).1 ≠ .error (.danglingHandle handle)
  runs : ∀ id, m.runs ⟨id, k.setup⟩ <+: k.runs
  all : ∀ id g, (resolve Machine.host ⟨id, k.setup⟩ m).1 = .ok g → m.runs ⟨id, k.setup⟩ = k.runs

/-- Whatever is called in a session and after it, its machine knows its setup. So does the
machine of an evaluation know what the evaluation gave, whatever happens to it later. -/
theorem inclusions_attached :
    (∀ (k : Session) (later : List Event),
      k.Answerable ((k.start.afterAll k.events).afterAll later)) ∧
    ∀ scripts m d m', evaluateEntry scripts m = .ok d m' →
      ∃ (before : List Event) (k : Session), k.start = (m.afterAll before).after .opened ∧
        d.setup = k.setup ∧ m' = k.ended.after (.note (declared d)) ∧
        ∀ later, k.Answerable (m'.afterAll later) := by
  have session : ∀ (k : Session) (later : List Event),
      k.Answerable ((k.start.afterAll k.events).afterAll later) := by
    intro k later
    have attached : ∀ a ∈ k.accepted,
        a.Attached ((k.start.afterAll k.events).afterAll later).registry := by
      intro a mem
      obtain ⟨c, j, stands, read⟩ := read_of_accepted a mem
      exact Accepted.attached_of_read (stands.mono (Machine.afterAll_registry _ later)) read
    have answers := fun id => runs_of_answers (Session.answers attached id)
    exact ⟨attached, fun id => (answers id).1, fun id => (answers id).2.1,
      fun id => (answers id).2.2⟩
  refine ⟨session, fun scripts m d m' ok => ?_⟩
  obtain ⟨before, k, start, same, rfl⟩ := evaluateEntry_session ok
  refine ⟨before, k, start, same, rfl, fun later => ?_⟩
  -- The end of the session, the note, and what comes later are events in a row.
  exact session k (.closed k.context :: .note (declared d) :: later)

theorem inclusions_attached_news : ∃ d m',
    evaluateEntry Sample.newsScripts Machine.boot = .ok d m' ∧
    d.setup.channels.map Channel.inclusion = [some ⟨0⟩] ∧
    ∃ k : Session, d.setup = k.setup ∧ k.Answerable m' := by
  obtain ⟨d, m', ok, handles⟩ := Sample.newsScripts_evaluates
  obtain ⟨_, k, _, same, _, later⟩ := inclusions_attached.2 _ _ d m' ok
  exact ⟨d, m', ok, handles, k, same, later []⟩

end GuildPlan.Script
