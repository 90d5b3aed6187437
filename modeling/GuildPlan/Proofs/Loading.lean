import GuildPlan.Proofs.Sparing
import Mathlib.Logic.Relation

/-
  The loader at its work. A call of the loader asks for the table of loaded modules and then for
  the module in it, one step after the other, on a machine that stays as it is. If there is
  something under the module's name, that is the answer. Otherwise the module runs, and its value
  is put there once it has returned. No other step of a script changes what is there.
-/
namespace GuildPlan.Script

variable {c : Cache} {R : Request → Prop} {m : Machine} {request : Request} {stack : Stack}

namespace Machine
variable {r : TableRef}

theorem handler_of_bare (bare : (m.table r).metatable = none) (name : String) :
    m.handler name (.table r) = .nil := by
  unfold handler
  dsimp only
  rw [bare]

/-- A table with nothing behind it answers by itself. -/
theorem look_of_bare (bare : (m.table r).metatable = none) (name : String) :
    m.look (.table r) (.text name) = .value ((m.table r).get (.text name)) := by
  have own : m.own (.table r) (.text name) = (m.table r).get (.text name) := rfl
  rw [look, show chainLimit = 1999 + 1 from rfl]
  unfold lookWithin
  rw [own]
  cases (m.table r).get (.text name) with
  | nil =>
    dsimp only
    simp only [handler_of_bare bare]
  | _ => rfl

/-- A table with nothing behind it is written to itself. -/
theorem aim_of_bare (bare : (m.table r).metatable = none) (key : Value) :
    m.aim (.table r) key = .value (.table r) := by
  rw [aim, show chainLimit = 1999 + 1 from rfl]
  unfold aimWithin
  split
  · rfl
  · dsimp only
    simp only [handler_of_bare bare]

/-- What a call of the loader asks for. -/
def requested? (m : Machine) (s : State) : Option Request :=
  match s.control with
  | .call depth _ f args =>
    match m.callee f args with
    | .function r args =>
      match m.callable r, moduleName (first args) with
      | .require scripts, .ok name => some ⟨scripts, name, depth⟩
      | _, _ => none
    | .refusal _ => none
  | _ => none

end Machine

/-! ## Step by step -/

theorem step_of_call {depth : Depth} {tail : Bool} {f : Value} {args : List Value} {s' : State}
    {m' : Machine} (called : call depth tail f args stack m = (s', m')) :
    step ⟨.call depth tail f args, stack⟩ m = (.going s', m') := by
  show (Status.going (call depth tail f args stack m).1, (call depth tail f args stack m).2) = _
  rw [called]

theorem step_of_given {vs : List Value} {f : Frame} {s' : State} {m' : Machine}
    (given : f.given vs stack m = (s', m')) : step ⟨.give vs, f :: stack⟩ m = (.going s', m') := by
  show (Status.going (f.given vs stack m).1, (f.given vs stack m).2) = _
  rw [given]

/-- The value of a module that has returned some values. -/
def moduleValue (vs : List Value) : Value :=
  match first vs with
  | .nil => .bool true
  | v => v

theorem moduleValue_ne_nil (vs : List Value) : moduleValue vs ≠ .nil := by
  unfold moduleValue
  split
  · nofun
  · next missing => exact missing

namespace Cache.Stands

theorem startLoading_eq (stands : c.Stands m) (scripts : MountTable Source) (depth : Depth)
    {arg : Value} {name : String} (named : moduleName arg = .ok name) (stack : Stack) :
    startLoading scripts depth arg stack m = (⟨.give [.table c.loaded],
      .host depth :: .loading ⟨scripts, name, depth⟩ .loaded :: stack⟩, m) := by
  have package : global "package" m = (.table c.package, m) := by
    show ((m.table m.globals).get (.text "package"), m) = _
    rw [stands.globals, stands.package]
  have asked : m.look (.table c.package) (.text "loaded") = .value (.table c.loaded) := by
    rw [Machine.look_of_bare stands.packageBare, stands.loaded]
  unfold startLoading
  rw [named]
  dsimp only
  rw [run_bind, package]
  show (State.answered depth 2 (m.look (.table c.package) (.text "loaded")) .one _, m) = _
  rw [asked]
  rfl

/-- A call of the loader first asks for the table of loaded modules. -/
theorem step_requested (stands : c.Stands m) {s : State}
    (requested : m.requested? s = some request) : step s m = (.going ⟨.give [.table c.loaded],
      .host request.depth :: .loading request .loaded :: s.stack⟩, m) := by
  obtain ⟨control, stack⟩ := s
  unfold Machine.requested? at requested
  split at requested
  · next depth tail f args called =>
    cases called
    split at requested
    · next r args' callee =>
      split at requested
      · next scripts name callable named =>
        cases requested
        refine step_of_call ?_
        unfold call
        rw [run_get_bind, callee]
        dsimp only
        rw [callable]
        exact stands.startLoading_eq scripts depth named stack
      · cases requested
    · cases requested
  · cases requested

/-- Then it asks for the module in that table. -/
theorem step_loaded (stands : c.Stands m) (request : Request) (stack : Stack) :
    step ⟨.give [.table c.loaded], .loading request .loaded :: stack⟩ m =
      (.going ⟨.give [c.entry m request.name],
        .host request.depth :: .loading request (.cached (.table c.loaded)) :: stack⟩, m) := by
  refine step_of_given ?_
  show (State.answered request.depth 2
    (m.look (.table c.loaded) (.text request.name)) .one _, m) = _
  rw [Machine.look_of_bare stands.loadedBare]
  rfl

/-- What a module returns is put into the table. -/
theorem step_running (stands : c.Stands m) (request : Request) (vs : List Value) (stack : Stack) :
    ∃ m', step ⟨.give vs, .loading request (.running (.table c.loaded)) :: stack⟩ m =
        (.going ⟨.give [], .loading request (.storing (moduleValue vs)) :: stack⟩, m') ∧
      c.Stands m' ∧ ∀ name,
        c.entry m' name = if name = request.name then moduleValue vs else c.entry m name := by
  have stored : step ⟨.give vs, .loading request (.running (.table c.loaded)) :: stack⟩ m =
      (.going ⟨.give [], .loading request (.storing (moduleValue vs)) :: stack⟩,
        (setRaw c.loaded (.text request.name) (moduleValue vs) m).2) := by
    have given : Loading.given request vs stack (.running (.table c.loaded)) = storeField
        request.depth (.table c.loaded) request.name (moduleValue vs)
          (.loading request (.storing (moduleValue vs)) :: stack) := by
      rw [Loading.given]
      rfl
    refine step_of_given ?_
    rw [Frame.given, given]
    unfold storeField
    rw [run_get_bind, Machine.aim_of_bare stands.loadedBare]
    rfl
  obtain ⟨apart, apart', _⟩ := stands.apart
  refine ⟨_, stored, ?_, fun name => ?_⟩
  · exact stands.update ⟨(absurd · apart), (absurd · apart'), fun _ => Table.metatable_set _ _ _⟩
  · refine (stands.entry_update c.loaded _ name).trans ?_
    rw [if_pos rfl, Table.get_set]
    by_cases same : name = request.name
    · rw [if_pos same, if_pos (congrArg Value.text same)]
    · rw [if_neg same, if_neg fun equal => same (Table.text_injective equal)]
      rfl

end Cache.Stands

/-- A module that is there is given. -/
theorem step_cached {v : Value} (there : v ≠ .nil) (modules : Value) :
    step ⟨.give [v], .loading request (.cached modules) :: stack⟩ m =
      (.going ⟨.give [v], stack⟩, m) := by
  cases v with
  | nil => exact absurd rfl there
  | _ => rfl

/-- A module that is not there is run. -/
theorem step_missing (modules : Value) :
    step ⟨.give [.nil], .loading request (.cached modules) :: stack⟩ =
      (runModule request modules stack >>= fun s => pure (.going s)) := rfl

theorem runModule_spares (may : R request) (waits : stack.Fine c R) :
    Spares c (State.Fine c R) (runModule request (.table c.loaded) stack) m := by
  unfold runModule
  split
  · exact raiseFault_spares _ waits
  · exact raiseFault_spares _ waits
  · next path block _ =>
    have loading : Stack.Fine c R (.loading request (.running (.table c.loaded)) :: stack) :=
      waits.push ⟨rfl, may⟩
    have below : Stack.Fine c R
        (.host request.depth :: .loading request (.running (.table c.loaded)) :: stack) :=
      loading.push trivial
    dsimp only
    split
    · exact .pure (below.push trivial)
    · exact .pure below

/-! ## Any step -/

/-- A state in which a script is at its own work, or the loader between two of its steps. -/
inductive State.Proper (c : Cache) (R : Request → Prop) (m : Machine) : State → Prop
  | fine {s : State} : s.Fine c R → Proper c R m s
  | loadedAsked {request : Request} {depth : Depth} {stack : Stack} : stack.Fine c R →
    Proper c R m ⟨.give [.table c.loaded], .host depth :: .loading request .loaded :: stack⟩
  | loaded {request : Request} {stack : Stack} : stack.Fine c R →
    Proper c R m ⟨.give [.table c.loaded], .loading request .loaded :: stack⟩
  | cachedAsked {request : Request} {depth : Depth} {stack : Stack} : stack.Fine c R →
    Proper c R m ⟨.give [c.entry m request.name],
      .host depth :: .loading request (.cached (.table c.loaded)) :: stack⟩
  | cached {request : Request} {stack : Stack} : stack.Fine c R →
    Proper c R m ⟨.give [c.entry m request.name],
      .loading request (.cached (.table c.loaded)) :: stack⟩
  | storing {request : Request} {v : Value} {stack : Stack} : stack.Fine c R →
    c.entry m request.name = v → v ≠ .nil →
    Proper c R m ⟨.give [], .loading request (.storing v) :: stack⟩

/-- Whether a module of some name has returned and is stored with the next step. -/
def State.stores (name : String) (s : State) : Bool :=
  match s.control, s.stack with
  | .give _, .loading request (.running _) :: _ => request.name = name
  | _, _ => false

theorem State.Proper.congr {m' : Machine} {s : State} (proper : s.Proper c R m)
    (same : ∀ name, c.entry m' name = c.entry m name) : s.Proper c R m' := by
  cases proper with
  | fine fine => exact .fine fine
  | loadedAsked waits => exact .loadedAsked waits
  | loaded waits => exact .loaded waits
  | cachedAsked waits => exact same _ ▸ .cachedAsked waits
  | cached waits => exact same _ ▸ .cached waits
  | storing waits entry there => exact .storing waits ((same _).trans entry) there

def Status.Proper (c : Cache) (R : Request → Prop) (m : Machine) : Status → Prop
  | .going s => s.Proper c R m
  | .ended _ => True

/-- What the loader may rely on after something is done in a state: it finds its way, the state
that comes next is a proper one, and no entry has changed but that of a module that is stored. -/
structure Leads (c : Cache) (R : Request → Prop) (s : State) (x : Run Status) (m : Machine) :
    Prop where
  stands : c.Stands (x m).2
  proper : (x m).1.Proper c R (x m).2
  entries : ∀ name, s.stores name = false → c.entry (x m).2 name = c.entry m name

namespace Leads
variable {s s' : State}

theorem of_spares {x : Run State} (spares : Spares c (State.Fine c R) x m) (stands : c.Stands m) :
    Leads c R s (x >>= fun s => pure (.going s)) m :=
  have ⟨fine, stands', same⟩ := spares stands
  ⟨stands', .fine fine, fun name _ => same name⟩

theorem of_fine {s' : State} (fine : s'.Fine c R) (stands : c.Stands m) :
    Leads c R s (pure (.going s')) m := ⟨stands, .fine fine, fun _ _ => rfl⟩

theorem ends (outcome : Except Value (List Value)) (stands : c.Stands m) :
    Leads c R s (pure (.ended outcome)) m := ⟨stands, trivial, fun _ _ => rfl⟩

/-- A step that leaves the machine as it is. -/
theorem of_step (stepped : step s m = (.going s', m)) (stands : c.Stands m)
    (proper : s'.Proper c R m) : Leads c R s (step s) m := by
  refine ⟨?_, ?_, fun name _ => ?_⟩
  all_goals rw [stepped]
  · exact stands
  · exact proper

end Leads

/-- A call may be one of the loader, which begins its work then. -/
theorem call_leads (stands : c.Stands m) (depth : Depth) (tail : Bool) (f : Value)
    (args : List Value) (honest : c.tampers m ⟨.call depth tail f args, stack⟩ = false)
    (waits : stack.Fine c R) :
    Leads c R ⟨.call depth tail f args, stack⟩ (step ⟨.call depth tail f args, stack⟩) m := by
  cases requested : m.requested? ⟨.call depth tail f args, stack⟩ with
  | some request => exact .of_step (stands.step_requested requested) stands (.loadedAsked waits)
  | none =>
    refine .of_spares (.looking fun _ => ?_) stands
    unfold Cache.tampers at honest
    unfold Machine.requested? at requested
    cases callee : m.callee f args with
    | refusal message => exact .pure waits
    | function r args' =>
      simp only [callee] at honest requested
      dsimp only
      cases callable : m.callable r with
      | closure params body scope =>
        exact callClosure_spares depth tail params body scope args' waits
      | builtin b =>
        refine runBuiltin_spares depth b (fun same => ?_) waits
        rw [callable, same] at honest
        exact honest
      | capability c' context =>
        refine .bind (runCapability_spares c' context (first args')) fun _ => ?_
        cases (runCapability c' context (first args') m).1 with
        | ok v => exact .pure waits
        | error fault => exact raiseFault_spares fault waits
      | require scripts =>
        -- A call that asks for no module is refused for its argument.
        unfold startLoading
        cases named : moduleName (first args') with
        | error fault => exact raiseFault_spares fault waits
        | ok name => simp only [callable, named, reduceCtorEq] at requested
      | resume thread => exact resumeThread_spares depth thread true args' waits
      | foreign code captured => exact .pure (waits.push trivial)

/-- Values that are given to a frame of a script's own, or to a loader whose module has run. -/
theorem give_leads (stands : c.Stands m) (vs : List Value) {f : Frame} (top : f.Fine c R)
    (honest : c.tampers m ⟨.give vs, f :: stack⟩ = false) (waits : stack.Fine c R) :
    Leads c R ⟨.give vs, f :: stack⟩ (step ⟨.give vs, f :: stack⟩) m := by
  cases f with
  | loading request stage =>
    obtain ⟨rfl, _⟩ := top
    obtain ⟨m', stepped, stands', entries⟩ := stands.step_running request vs stack
    refine ⟨?_, ?_, fun name others => ?_⟩
    all_goals rw [stepped]
    · exact stands'
    · exact .storing waits ((entries _).trans (if_pos rfl)) (moduleValue_ne_nil vs)
    · exact (entries name).trans (if_neg fun same => by simp [State.stores, same] at others)
  | _ => exact .of_spares (given_spares vs (fun _ _ => nofun) honest waits) stands

/-- A step of a script at its own work. -/
theorem step_leads_of_fine (stands : c.Stands m) {s : State} (fine : s.Fine c R)
    (honest : c.tampers m s = false) : Leads c R s (step s) m := by
  obtain ⟨control, stack⟩ := s
  have waits : stack.Fine c R := fine
  cases control with
  | run site block =>
    cases block with
    | nil => exact .of_fine waits stands
    | cons s rest => exact .of_fine (execute_fine site s (waits.push trivial)) stands
  | evaluate site e => exact .of_spares (evaluate_spares site e waits) stands
  | find site action found rest =>
    exact .of_spares (find_spares site found rest honest waits) stands
  | call depth tail f args => exact call_leads stands depth tail f args honest waits
  | give vs =>
    cases stack with
    | nil => exact .ends _ stands
    | cons f stack =>
      obtain ⟨top, waits⟩ := List.forall_mem_cons.1 waits
      exact give_leads stands vs top honest waits
  | next site =>
    cases stack with
    | nil => exact .ends _ stands
    | cons f stack =>
      exact .of_spares (passed_spares site f (List.forall_mem_cons.1 waits).2) stands
  | leave vs =>
    cases stack with
    | nil => exact .ends _ stands
    | cons f stack => exact .of_fine (left_fine vs f (List.forall_mem_cons.1 waits).2) stands
  | raise v =>
    cases stack with
    | nil => exact .ends _ stands
    | cons f stack =>
      exact .of_spares (struck_spares v f (List.forall_mem_cons.1 waits).2) stands
  | refuse level own message =>
    have refused : step ⟨.refuse level own message, stack⟩ m =
        (.going ⟨.raise (m.refusal level own message stack), stack⟩, m) := rfl
    exact .of_step refused stands (.fine waits)

/-- A step of a script that does not tamper with what the loader goes by. No module is run but
those of which nothing is there yet. -/
theorem step_leads (stands : c.Stands m) {s : State} (proper : s.Proper c R m)
    (honest : c.tampers m s = false)
    (missing : ∀ request : Request, c.entry m request.name = .nil → R request) :
    Leads c R s (step s) m := by
  cases proper with
  | fine fine => exact step_leads_of_fine stands fine honest
  | loadedAsked waits => exact .of_step rfl stands (.loaded waits)
  | loaded waits => exact .of_step (stands.step_loaded _ _) stands (.cachedAsked waits)
  | cachedAsked waits => exact .of_step rfl stands (.cached waits)
  | @cached request stack waits =>
    by_cases absent : c.entry m request.name = .nil
    · rw [absent, step_missing]
      exact .of_spares (runModule_spares (missing request absent) waits) stands
    · exact .of_step (step_cached absent _) stands (.fine waits)
  | storing waits _ _ => exact .of_step rfl stands (.fine waits)

/-! ## Calls of the loader -/

/-- Whether code is next, and not just a call, or values that are handed on. -/
def State.isCode (s : State) : Bool :=
  match s.control, s.stack with
  | .give _, .foreign _ _ _ :: _ => true
  | .call _ _ _ _, _ | .give _, _ => false
  | _, _ => true

/-- From one state to another with no code run on the way. Nothing is done to the machine
meanwhile, but that tables are arranged anew. -/
inductive Quietly : Machine → State → State → Prop
  | refl {m : Machine} {s : State} : Quietly m s s
  | step {m : Machine} {s s' s'' : State} : s.isCode = false → Script.step s m = (.going s', m) →
    Quietly m.stirred s' s'' → Quietly m s s''

theorem Quietly.tail {s s' s'' : State} (quietly : Quietly m s s') (quiet : s'.isCode = false)
    (stepped : ∀ m, Script.step s' m = (.going s'', m)) : Quietly m s s'' := by
  induction quietly with
  | refl => exact .step quiet (stepped _) .refl
  | step before first _ ih => exact .step before first (ih quiet stepped)

namespace Cache.Stands
variable {s : State}

theorem asks (stands : c.Stands m) (requested : m.requested? s = some request) :
    Quietly m s ⟨.give [c.entry m request.name],
      .loading request (.cached (.table c.loaded)) :: s.stack⟩ := by
  have called : s.isCode = false := by
    unfold Machine.requested? at requested
    split at requested
    · next control => rw [State.isCode, control]
    · cases requested
  -- Two stirrings later the loader asks, and finds what has been there all the time.
  obtain ⟨stands', same⟩ := stands.stirred
  obtain ⟨stands'', same'⟩ := stands'.stirred
  have found := stands''.step_loaded request s.stack
  rw [same', same] at found
  refine .step called (stands.step_requested requested) ?_
  refine .step rfl rfl ?_
  refine .step rfl found ?_
  exact .step rfl rfl .refl

/-- A call of the loader for something that is there gives it, and runs nothing. -/
theorem answers (stands : c.Stands m) (requested : m.requested? s = some request)
    (there : c.entry m request.name ≠ .nil) :
    Quietly m s ⟨.give [c.entry m request.name], s.stack⟩ :=
  (stands.asks requested).tail rfl fun _ => step_cached there _

/-- A call of the loader for something that is not there runs what the name resolves to. -/
theorem runs (stands : c.Stands m) (requested : m.requested? s = some request)
    (absent : c.entry m request.name = .nil) {path : String} {block : Block} {depth : Depth}
    (resolves : request.scripts.resolve? request.name = some (path, some block))
    (room : request.depth.run? 1 = some depth) :
    Quietly m s ⟨.run { depth } block, .body :: .host request.depth ::
      .loading request (.running (.table c.loaded)) :: s.stack⟩ := by
  have asked := stands.asks requested
  rw [absent] at asked
  refine asked.tail rfl fun _ => ?_
  rw [step_missing]
  unfold runModule
  rw [resolves]
  dsimp only
  rw [room]
  rfl

end Cache.Stands
end GuildPlan.Script
