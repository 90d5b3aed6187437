import GuildPlan.Proofs.Evaluation
import GuildPlan.Proofs.Replies
import GuildPlan.Proofs.Sample

/-
  What happens to an interpreter, event by event. A setup context holds the entities of the
  calls through it that were accepted, and nothing else ever gets there; once it is closed it
  takes nothing any more. Whatever scripts and the host do to a machine is a list of events,
  so this is true of every declaration that an evaluation gives.
-/
namespace GuildPlan

/-! ## Entities by their sort -/

namespace Entity

def channel? : Entity → Option Channel
  | .channel c => some c
  | _ => none

def role? : Entity → Option Role
  | .role r => some r
  | _ => none

def category? : Entity → Option Category
  | .category c => some c
  | _ => none

end Entity

namespace Setup

/-- The setup in which some entities are declared in turn, each in the list of its sort. -/
def ofEntities (entities : List Entity) : Setup where
  channels := entities.filterMap Entity.channel?
  roles := entities.filterMap Entity.role?
  categories := entities.filterMap Entity.category?

theorem record_ofEntities {entities : List Entity} {location : Location} {e : Entity} {s : Setup}
    (ok : (ofEntities entities).record location e = .ok s) : s = ofEntities (entities ++ [e]) := by
  cases e with
  | channel c =>
    obtain ⟨_, _, ok⟩ := Schema.Checked.bind_eq_ok.1 ok
    cases ok
    simp [ofEntities, addChannel, Entity.channel?, Entity.role?, Entity.category?]
  | role r =>
    obtain ⟨_, _, ok⟩ := Schema.Checked.bind_eq_ok.1 ok
    cases ok
    simp [ofEntities, addRole, Entity.channel?, Entity.role?, Entity.category?]
  | category c =>
    obtain ⟨_, _, ok⟩ := Schema.Checked.bind_eq_ok.1 ok
    cases ok
    simp [ofEntities, addCategory, Entity.channel?, Entity.role?, Entity.category?]
  | builder e =>
    cases ok
    simp [ofEntities, Entity.channel?, Entity.role?, Entity.category?]

end Setup

namespace Script

/-! ## Events -/

/-- Something that happens to an interpreter. -/
inductive Event
  /-- The memory of scripts changes in some way. -/
  | memory (heap : Heap) (cells : Array Value) (threads : Array Thread) (faults clock : Nat)
  | function (c : Callable)
  | note (line : LogLine)
  | called (c : Capability) (context : Option ContextRef) (arg : Value)
  /-- A setup begins, with a context of its own. -/
  | opened
  /-- A setup is over, whether it returned or raised something. -/
  | closed (r : ContextRef)

namespace Machine

def after (m : Machine) : Event → Machine
  | .memory heap cells threads faults clock => { m with heap, cells, threads, faults, clock }
  | .function c => { m with functions := m.functions.push c }
  | .note line => m.noted line
  | .called c context arg => (runCapability c context arg m).2
  | .opened => (newContext m).2
  | .closed r => (setContext r none m).2

/-- The machine after some events in turn. -/
def afterAll (m : Machine) (events : List Event) : Machine := events.foldl after m

theorem afterAll_append (m : Machine) (first second : List Event) :
    m.afterAll (first ++ second) = (m.afterAll first).afterAll second :=
  List.foldl_append

theorem after_registry (m : Machine) (e : Event) : m.registry.Within (m.after e).registry := by
  cases e with
  | called c context arg => exact runCapability_registry c context arg m
  | _ => exact .refl m.registry

/-- No event takes a function away from a handle. -/
theorem afterAll_registry (m : Machine) (events : List Event) :
    m.registry.Within (m.afterAll events).registry := by
  induction events generalizing m with
  | nil => exact .refl m.registry
  | cons e events ih => exact (m.after_registry e).trans (ih (m.after e))

end Machine

/-! ## Accepted declarations -/

/-- A declaration that was accepted: its entity, and the argument that it was read from, on
the heap of that moment. -/
structure Accepted where
  entity : Entity
  heap : Heap
  argument : TableRef

/-- The entity that a capability reads an argument as. -/
def Machine.entity (m : Machine) (c : Capability) (arg : Value) : Schema.Checked Entity :=
  match toJson m.heap c.location arg m.registry with
  | .ok json _ => c.read json
  | .error e _ => .error e

/-- What an event declares in a context, if it is a call through the context that records
something and is accepted. -/
def Event.accepted? (r : ContextRef) (m : Machine) : Event → Option Accepted
  | .called c (some r') (.table t) =>
    if r' = r ∧ c.records ∧ (runCapability c (some r') (.table t) m).1.isOk then
      (m.entity c (.table t)).toOption.map fun entity => ⟨entity, m.heap, t⟩
    else none
  | _ => none

/-- What events in turn declare in a context. -/
def accepted (r : ContextRef) : Machine → List Event → List Accepted
  | _, [] => []
  | m, e :: events => (e.accepted? r m).toList ++ accepted r (m.after e) events

theorem accepted?_of_refused {c : Capability} {context : Option ContextRef} {arg : Value}
    {m : Machine} {f : Fault} (r : ContextRef)
    (refused : (runCapability c context arg m).1 = .error f) :
    (Event.called c context arg).accepted? r m = none := by
  unfold Event.accepted?
  split
  · next same =>
    cases same
    rw [refused]
    exact if_neg fun h => nomatch h.2.2
  · rfl

theorem accepted?_of_ok {c : Capability} {r' : ContextRef} {t : TableRef} {m : Machine} {v : Value}
    {json : Json} {g : Registry} {entity : Entity} (r : ContextRef)
    (ok : (runCapability c (some r') (.table t) m).1 = .ok v)
    (given : toJson m.heap c.location (.table t) m.registry = .ok json g)
    (read : c.read json = .ok entity) :
    (Event.called c (some r') (.table t)).accepted? r m =
      if r' = r ∧ c.records then some ⟨entity, m.heap, t⟩ else none := by
  have amounts : m.entity c (.table t) = .ok entity := by
    unfold Machine.entity
    rw [given]
    exact read
  show (if _ then (m.entity c (.table t)).toOption.map _ else none) = _
  rw [ok, amounts]
  simp [Except.isOk, Except.toBool, Except.toOption]

/-- What is in the log of a context are the calls through it that record something and are
accepted. -/
theorem accepted?_isSome_iff {c : Capability} {context : Option ContextRef} {arg : Value}
    {r : ContextRef} {m : Machine} : ((Event.called c context arg).accepted? r m).isSome ↔
      context = some r ∧ c.records = true ∧ (runCapability c context arg m).1.isOk = true := by
  constructor
  · intro declares
    unfold Event.accepted? at declares
    split at declares
    · next same =>
      cases same
      split at declares
      · next h => exact ⟨congrArg some h.1, h.2⟩
      · cases declares
    · cases declares
  · rintro ⟨rfl, records, ok⟩
    have reply := runCapability_reply c (some r) arg m
    generalize ran : runCapability c (some r) arg m = result at reply ok
    cases reply with
    | refused => cases ok
    | declared given declares =>
      have read := (Capability.declare_eq_ok declares).1
      rw [accepted?_of_ok r (congrArg Prod.fst ran) given read, if_pos ⟨rfl, records⟩]
      rfl

theorem opened_context {m : Machine} {r : ContextRef} (inside : r.index < m.contexts.size) :
    (m.after .opened).context r = m.context r := by
  show (m.contexts.push (some {})).getD r.index none = m.contexts.getD r.index none
  rw [Array.getD_eq_getD_getElem?, Array.getElem?_push_lt inside]
  rw [Array.getD_eq_getD_getElem?, Array.getElem?_eq_getElem inside]

/-- What a call does to a context: nothing, or it records the one thing that it declares. -/
theorem called_context (r : ContextRef) (m : Machine) (c : Capability) (context : Option ContextRef)
    (arg : Value) :
    ((Event.called c context arg).accepted? r m = none ∧
      (runCapability c context arg m).2.context r = m.context r) ∨
    ∃ a s s', (Event.called c context arg).accepted? r m = some a ∧ m.context r = some s ∧
      s.record c.location a.entity = .ok s' ∧
      (runCapability c context arg m).2.context r = some s' := by
  have reply := runCapability_reply c context arg m
  generalize ran : runCapability c context arg m = result at reply
  cases reply with
  | refused _ contexts =>
    exact .inl ⟨accepted?_of_refused r (congrArg Prod.fst ran), Machine.context_congr contexts r⟩
  | checked _ _ contexts => exact .inl ⟨rfl, Machine.context_congr contexts r⟩
  | @declared r' t json entity after v m' given declares contexts =>
    obtain ⟨read, recorded⟩ := Capability.declare_eq_ok declares
    rw [accepted?_of_ok r (congrArg Prod.fst ran) given read]
    have changed := (Machine.context_congr contexts r).trans (setContext_context r r' after m)
    rw [changed]
    by_cases here : r' = r
    · subst here
      obtain ⟨idle, rfl⟩ | ⟨records, s, s', open_, recorded, rfl⟩ := recorded
      · left
        simp [idle]
      · right
        exact ⟨_, s, s', if_pos ⟨rfl, records⟩, open_, recorded, if_pos ⟨rfl, context_size open_⟩⟩
    · left
      exact ⟨if_neg fun h => here h.1, if_neg fun h => here h.1.symm⟩

/-- What an event does to a context that it does not close. -/
theorem context_after {m : Machine} {r : ContextRef} {e : Event}
    (inside : r.index < m.contexts.size) (unsealed : e ≠ .closed r) :
    (e.accepted? r m = none ∧ (m.after e).context r = m.context r) ∨
    ∃ a s location s', e.accepted? r m = some a ∧ m.context r = some s ∧
      s.record location a.entity = .ok s' ∧ (m.after e).context r = some s' := by
  cases e with
  | memory | function | note => exact .inl ⟨rfl, rfl⟩
  | opened => exact .inl ⟨rfl, opened_context inside⟩
  | closed r' =>
    have apart : r ≠ r' := fun same => unsealed (same ▸ rfl)
    exact .inl ⟨rfl, (setContext_context r r' none m).trans (if_neg fun h => apart h.1)⟩
  | called c context arg =>
    rcases called_context r m c context arg with same | ⟨a, s, s', declares⟩
    · exact .inl same
    · exact .inr ⟨a, s, c.location, s', declares⟩

theorem size_le_after (m : Machine) (e : Event) :
    m.contexts.size ≤ (m.after e).contexts.size := by
  cases e with
  | memory | function | note => exact Nat.le_refl _
  | opened =>
    show m.contexts.size ≤ (m.contexts.push (some {})).size
    simp
  | closed r =>
    show m.contexts.size ≤ (m.contexts.setIfInBounds r.index none).size
    simp
  | called c context arg =>
    show m.contexts.size ≤ (runCapability c context arg m).2.contexts.size
    have reply := runCapability_reply c context arg m
    generalize runCapability c context arg m = result at reply
    cases reply with
    | refused _ contexts => exact Nat.le_of_eq (congrArg Array.size contexts.symm)
    | checked _ _ contexts => exact Nat.le_of_eq (congrArg Array.size contexts.symm)
    | @declared r _ _ _ after _ m' _ _ contexts =>
      rw [contexts]
      show m.contexts.size ≤ (m.contexts.setIfInBounds r.index after).size
      simp

/-! ## Histories -/

/-- A context that some entities have been declared in holds these and what is accepted
later on, as long as it is not closed. -/
theorem afterAll_context {m : Machine} {r : ContextRef} {events : List Event}
    {entities : List Entity} (here : m.context r = some (.ofEntities entities))
    (unsealed : .closed r ∉ events) : (m.afterAll events).context r =
      some (.ofEntities (entities ++ (accepted r m events).map Accepted.entity)) := by
  -- Induction on the events, with what the context holds by now as `entities`.
  induction events generalizing m entities with
  | nil => simpa [Machine.afterAll, accepted] using here
  | cons e events ih =>
    obtain ⟨first, others⟩ := not_or.1 (mt List.mem_cons.2 unsealed)
    show ((m.after e).afterAll events).context r = _
    unfold accepted
    rcases context_after (context_size here) (Ne.symm first) with
      ⟨nothing, same⟩ | ⟨a, s, location, s', declares, open_, recorded, changed⟩
    · rw [nothing]
      exact ih (same.trans here) others
    · cases Option.some.inj (open_.symm.trans here)
      cases Setup.record_ofEntities recorded
      rw [ih changed others, declares]
      simp

/-- A closed context stays closed, and nothing is declared in it. -/
theorem afterAll_closed {m : Machine} {r : ContextRef} (inside : r.index < m.contexts.size)
    (closed : m.context r = none) (events : List Event) : (m.afterAll events).context r = none := by
  induction events generalizing m with
  | nil => exact closed
  | cons e events ih =>
    refine ih (Nat.lt_of_lt_of_le inside (size_le_after m e)) ?_
    by_cases again : e = .closed r
    · rw [again]
      exact (setContext_context r r none m).trans (if_pos ⟨rfl, inside⟩)
    · rcases context_after inside again with ⟨_, same⟩ | ⟨_, s, _, _, _, open_, _⟩
      · exact same.trans closed
      · exact nomatch open_.symm.trans closed

/-- A call that would record something in a closed context is refused. -/
theorem refused_of_closed {m : Machine} {r : ContextRef} {c : Capability}
    (closed : m.context r = none) (records : c.records = true) (arg : Value) :
    ∃ e, (runCapability c (some r) arg m).1 = .error (.invalid e) := by
  have reply := runCapability_reply c (some r) arg m
  generalize runCapability c (some r) arg m = result at reply
  cases reply with
  | refused => exact ⟨_, rfl⟩
  | declared _ declares =>
    obtain ⟨_, ⟨idle, _⟩ | ⟨_, _, _, open_, _⟩⟩ := Capability.declare_eq_ok declares
    · exact nomatch idle.symm.trans records
    · exact nomatch open_.symm.trans closed

/-! ## Evaluations -/

theorem Effect.event {m m' : Machine} (h : Effect m m') :
    ∃ e, m' = m.after e ∧ ∀ r, e ≠ .closed r := by
  cases h with
  | memory heap cells threads faults clock =>
    exact ⟨.memory heap cells threads faults clock, rfl, fun _ => nofun⟩
  | function c => exact ⟨.function c, rfl, fun _ => nofun⟩
  | note line => exact ⟨.note line, rfl, fun _ => nofun⟩
  | called c context arg => exact ⟨.called c context arg, rfl, fun _ => nofun⟩

/-- What scripts do to a machine are events, and none of them closes a context. -/
theorem Effects.events {m m' : Machine} (h : Effects m m') :
    ∃ events, m' = m.afterAll events ∧ ∀ r, .closed r ∉ events := by
  induction h with
  | refl => exact ⟨[], rfl, fun _ => List.not_mem_nil⟩
  | tail _ last ih =>
    obtain ⟨events, rfl, unsealed⟩ := ih
    obtain ⟨e, rfl, other⟩ := last.event
    refine ⟨events ++ [e], (Machine.afterAll_append _ events [e]).symm, fun r mem => ?_⟩
    rcases List.mem_append.1 mem with mem | mem
    · exact unsealed r mem
    · exact other r (List.mem_singleton.1 mem).symm

/-- A machine on which a setup has run to its end: what it was when it opened the context,
and what happened until it closed it again. -/
structure Session where
  start : Machine
  context : ContextRef
  events : List Event
  fresh : start.context context = some {}
  unsealed : .closed context ∉ events

namespace Session

/-- The declarations that have been accepted. -/
def accepted (k : Session) : List Accepted := Script.accepted k.context k.start k.events

/-- What has been declared. -/
def setup (k : Session) : Setup := .ofEntities (k.accepted.map Accepted.entity)

/-- The machine once the context is closed. -/
def ended (k : Session) : Machine := (k.start.afterAll k.events).after (.closed k.context)

theorem context_setup (k : Session) :
    (k.start.afterAll k.events).context k.context = some k.setup :=
  afterAll_context (show k.start.context k.context = some (.ofEntities []) from k.fresh) k.unsealed

end Session

theorem runSetup_session (setup : Value) (m : Machine) : ∃ k : Session, k.start = m.after .opened ∧
    (runSetup setup m = .ok k.setup k.ended ∨ ∃ e, runSetup setup m = .error e k.ended) := by
  obtain ⟨r, opened⟩ : ∃ r, newContext m = (r, m.after .opened) := ⟨_, rfl⟩
  have fresh := newContext_context opened
  -- Between the opening and the closing there are the making of `ctx` and the run.
  rcases given : capabilityTable (some r) [] (m.after .opened) with ⟨ctx, t⟩
  have effects := run_confined (.ofCall setup [ctx]) t
  rcases ran : run (.ofCall setup [ctx]) t with ⟨outcome, t'⟩
  rw [ran] at effects
  have all : Effects (m.after .opened) t' := by
    have first := capabilityTable_confined (some r) [] (m.after .opened)
    rw [given] at first
    exact first.trans effects
  obtain ⟨events, rfl, unsealed⟩ := all.events
  let k : Session := ⟨m.after .opened, r, events, fresh, unsealed r⟩
  have held : (k.start.afterAll k.events).context r = some k.setup := k.context_setup
  refine ⟨k, rfl, ?_⟩
  unfold runSetup
  rw [Hosted.bind_of_ok (hosted_ok newContext m), opened]
  rw [Hosted.bind_of_ok (hosted_ok _ _), given]
  rw [Hosted.bind_of_ok (hosted_ok _ _), ran]
  have looked : (get : Hosted Machine) (k.start.afterAll k.events) = .ok _ _ := rfl
  rw [Hosted.bind_of_ok looked, held, Hosted.bind_of_ok (hosted_ok _ _)]
  cases outcome with
  | ok vs => exact .inl rfl
  | error v => exact .inr ⟨k.ended.failure v, rfl⟩

/-- An evaluation declares what one setup has declared. Before it there have been events that
close nothing, and since then the machine has only taken a note. -/
theorem evaluateEntry_session {scripts : MountTable Source} {d : Declaration} {m m' : Machine}
    (ok : evaluateEntry scripts m = .ok d m') : ∃ (before : List Event) (k : Session),
      k.start = (m.afterAll before).after .opened ∧ d.setup = k.setup ∧
      m' = k.ended.after (.note (declared d)) := by
  unfold evaluateEntry at ok
  obtain ⟨_, _, loaded, ok⟩ := Hosted.bind_eq_ok ok
  rcases entry : scripts.entrySource? with _ | _ | block
  · rw [entry] at ok
    cases ok
  · rw [entry] at ok
    cases ok
  · rw [entry] at ok
    obtain ⟨values, _, completed, ok⟩ := Hosted.bind_eq_ok ok
    obtain ⟨⟨guildId, setup⟩, t, contract, ok⟩ := Hosted.bind_eq_ok ok
    obtain ⟨s, t', ran, ok⟩ := Hosted.bind_eq_ok ok
    obtain ⟨_, noted, wrote, ok⟩ := Hosted.bind_eq_ok ok
    cases ok
    cases wrote
    have all : Effects m t := ((installLoader_contained scripts).of_ok loaded).trans
      (((completed_contained _).of_ok completed).trans ((readContract_contained _).of_ok contract))
    obtain ⟨before, rfl, _⟩ := all.events
    obtain ⟨k, start, done | ⟨e, failed⟩⟩ := runSetup_session setup (m.afterAll before)
    · cases done.symm.trans ran
      exact ⟨before, k, start, rfl, rfl⟩
    · cases failed.symm.trans ran

/-! ## Setups as calls build them -/

theorem after_calls {m : Machine} {r : ContextRef} {e : Event} (inside : r.index < m.contexts.size)
    (unsealed : e ≠ .closed r) : ∃ calls, (m.after e).context r = (m.context r).afterAll calls := by
  cases e with
  | called c context arg => exact runCapability_context c context arg r m
  | _ =>
    rcases context_after inside unsealed with ⟨_, same⟩ | ⟨_, _, _, _, declares, _⟩
    · exact ⟨[], same⟩
    · cases declares

/-- A context that is not closed is what some calls in turn make of it. -/
theorem afterAll_calls {m : Machine} {r : ContextRef} {events : List Event}
    (inside : r.index < m.contexts.size) (unsealed : .closed r ∉ events) :
    ∃ calls, (m.afterAll events).context r = (m.context r).afterAll calls := by
  induction events generalizing m with
  | nil => exact ⟨[], rfl⟩
  | cons e events ih =>
    obtain ⟨first, others⟩ := not_or.1 (mt List.mem_cons.2 unsealed)
    obtain ⟨calls, here⟩ := after_calls inside (Ne.symm first)
    obtain ⟨more, later⟩ := ih (Nat.lt_of_lt_of_le inside (size_le_after m e)) others
    refine ⟨calls ++ more, ?_⟩
    rw [Context.afterAll_append, ← here]
    exact later

theorem Session.calls (k : Session) : ∃ calls, Context.afterAll (some {}) calls = some k.setup := by
  obtain ⟨calls, made⟩ := afterAll_calls (context_size k.fresh) k.unsealed
  rw [k.fresh, k.context_setup] at made
  exact ⟨calls, made.symm⟩

/-! ## The log -/

/-- A setup is the log of what was accepted through its context. Until the context is closed
it holds just that, and every other call leaves it as it is; from then on, whatever happens
later, it is closed and refuses whatever would be recorded in it. -/
structure Session.Logged (k : Session) (later : List Event) : Prop where
  held : (k.start.afterAll k.events).context k.context = some k.setup
  untouched : ∀ c context arg,
    (runCapability c context arg (k.start.afterAll k.events)).1.isOk = false ∨
      context ≠ some k.context ∨ c.records = false →
    (runCapability c context arg (k.start.afterAll k.events)).2.context k.context = some k.setup
  closed : (k.ended.afterAll later).context k.context = none
  refused : ∀ c arg, c.records = true →
    ∃ e, (runCapability c (some k.context) arg (k.ended.afterAll later)).1 = .error (.invalid e)

/-- Every session is logged, every run of a setup function is a session, whether the function
returns or raises something, and an evaluation declares what its session has logged. -/
theorem setup_eq_accepted :
    (∀ (k : Session) (later : List Event), k.Logged later) ∧
    (∀ setup m, ∃ k : Session, k.start = m.after .opened ∧
      (runSetup setup m = .ok k.setup k.ended ∨ ∃ e, runSetup setup m = .error e k.ended)) ∧
    ∀ scripts m d m', evaluateEntry scripts m = .ok d m' →
      ∃ (before : List Event) (k : Session), k.start = (m.afterAll before).after .opened ∧
        d.setup = k.setup ∧ m' = k.ended.after (.note (declared d)) := by
  refine ⟨fun k later => ?_, runSetup_session, fun _ _ _ _ => evaluateEntry_session⟩
  have held := k.context_setup
  have inside := context_size held
  have ended : k.ended.context k.context = none :=
    (setContext_context k.context k.context none _).trans (if_pos ⟨rfl, inside⟩)
  have closed : (k.ended.afterAll later).context k.context = none :=
    afterAll_closed (Nat.lt_of_lt_of_le inside (size_le_after _ _)) ended later
  refine ⟨held, fun c context arg other => ?_, closed, fun c arg records =>
    refused_of_closed closed records arg⟩
  rcases called_context k.context _ c context arg with ⟨_, same⟩ | ⟨a, _, _, declares, _⟩
  · exact same.trans held
  · -- It is none of the calls that are in the log.
    have logged := accepted?_isSome_iff.1 (Option.isSome_of_eq_some declares)
    obtain ⟨through, records, ok⟩ := logged
    rcases other with refused | elsewhere | idle
    · exact nomatch refused.symm.trans ok
    · exact absurd through elsewhere
    · exact nomatch idle.symm.trans records

theorem setup_eq_accepted_news : ∃ d m',
    evaluateEntry Sample.newsScripts Machine.boot = .ok d m' ∧
    d.setup.channels.map Channel.inclusion = [some ⟨0⟩] ∧
    ∃ k : Session, d.setup = k.setup ∧ k.Logged [] := by
  obtain ⟨d, m', ok, handles⟩ := Sample.newsScripts_evaluates
  obtain ⟨_, k, _, declared, _⟩ := setup_eq_accepted.2.2 _ _ d m' ok
  exact ⟨d, m', ok, handles, k, declared, setup_eq_accepted.1 k []⟩

end Script

/-! ## Compilations -/

open Script

/-- A compilation that succeeds resolves what a session has declared. -/
theorem compile_session {tree : Tree Source} {entry : String} {m : Machine} {p : Platform}
    {g : Guild} (ok : (compile tree entry m p).1 = .ok g) : ∃ scripts d m' before, ∃ k : Session,
      MountTable.scan tree entry = .ok scripts ∧ evaluateEntry scripts (m.reset p) = .ok d m' ∧
      k.start = ((m.reset p).afterAll before).after .opened ∧ d.setup = k.setup ∧
      m' = k.ended.after (.note (declared d)) ∧ (resolve Machine.host d m').1 = .ok g := by
  unfold compile at ok
  split at ok
  · cases ok
  · next scripts scanned =>
    split at ok
    · cases ok
    · next d m' evaluated =>
      obtain ⟨before, k, start, same, rest⟩ := evaluateEntry_session evaluated
      exact ⟨scripts, d, m', before, k, scanned, evaluated, start, same, rest, ok⟩

theorem compile_eq_ok {tree : Tree Source} {entry : String} {m : Machine} {p : Platform}
    {g : Guild} (ok : (compile tree entry m p).1 = .ok g) : ∃ d m' calls,
      Context.afterAll (some {}) calls = some d.setup ∧ (resolve Machine.host d m').1 = .ok g := by
  obtain ⟨_, d, m', _, k, _, _, _, same, _, resolved⟩ := compile_session ok
  obtain ⟨calls, built⟩ := k.calls
  exact ⟨d, m', calls, same ▸ built, resolved⟩

end GuildPlan
