import GuildPlan.Script.Interpreter
import Mathlib.Logic.Relation

/-
  What a script can do to a machine. Whatever a step does is made of a few effects, of which
  only the call of a capability reaches the registry and the contexts; so is what a run does,
  and what the host does through runs.
-/
namespace GuildPlan.Script

variable {α β : Type}

/-- A single effect of a script on its machine. -/
inductive Effect : Machine → Machine → Prop
  /-- The script's own memory changes in some way. -/
  | memory (m : Machine) (heap : Heap) (cells : Array Value) (threads : Array Thread)
      (faults clock : Nat) : Effect m { m with heap, cells, threads, faults, clock }
  | function (m : Machine) (c : Callable) :
      Effect m { m with functions := m.functions.push c }
  | note (m : Machine) (line : LogLine) : Effect m (m.noted line)
  | called (m : Machine) (c : Capability) (context : Option ContextRef) (arg : Value) :
      Effect m (runCapability c context arg m).2

/-- Effects in a row. -/
abbrev Effects : Machine → Machine → Prop := Relation.ReflTransGen Effect

/-- Something that has no effects but those of scripts. -/
def Confined (x : Run α) : Prop := ∀ m, Effects m (x m).2

namespace Confined

theorem pure (a : α) : Confined (Pure.pure a) := fun _ => .refl

theorem get : Confined (MonadState.get : Run Machine) := fun _ => .refl

theorem bind {x : Run α} {f : α → Run β} (first : Confined x) (rest : ∀ a, Confined (f a)) :
    Confined (x >>= f) := fun m => (first m).trans (rest (x m).1 (x m).2)

/-- What is done after a look at the machine. -/
theorem looking {f : Machine → Run α} (rest : ∀ m, Confined (f m)) :
    Confined (MonadState.get >>= f) := .bind .get rest

/-- What ends in a value that is made of what was done before. -/
theorem then_pure {x : Run α} (f : α → β) (h : Confined x) :
    Confined (x >>= fun a => Pure.pure (f a)) := .bind h fun a => .pure (f a)

theorem mapM {f : α → Run β} (each : ∀ a, Confined (f a)) (xs : List α) :
    Confined (xs.mapM f) := by
  induction xs with
  | nil =>
    rw [List.mapM_nil]
    exact .pure _
  | cons x xs ih =>
    rw [List.mapM_cons]
    exact .bind (each x) fun b => .then_pure _ ih

theorem effect {f : Machine → α × Machine} (h : ∀ m, Effect m (f m).2) :
    Confined (modifyGet f : Run α) := fun m => .single (h m)

end Confined

/-! ## The machine's own operations -/

theorem newTable_confined (t : Table) : Confined (newTable t) :=
  .effect fun m => .memory m _ m.cells m.threads m.faults m.clock

theorem newFunction_confined (c : Callable) : Confined (newFunction c) :=
  .effect fun m => .function m c

theorem newCell_confined (v : Value) : Confined (newCell v) :=
  .effect fun m => .memory m m.heap _ m.threads m.faults m.clock

theorem newThread_confined (body : Value) : Confined (newThread body) :=
  .effect fun m => .memory m m.heap m.cells _ m.faults m.clock

theorem newFault_confined (f : Fault) : Confined (newFault f) :=
  .effect fun m => .memory m m.heap m.cells m.threads _ m.clock

theorem updateHeap_confined (f : Heap → Heap) :
    Confined (modify fun m => { m with heap := f m.heap } : Run Unit) :=
  .effect fun m => .memory m (f m.heap) m.cells m.threads m.faults m.clock

theorem setRaw_confined (r : TableRef) (key value : Value) : Confined (setRaw r key value) :=
  updateHeap_confined (·.update r (·.set key value))

theorem setMetatable_confined (r : TableRef) (metatable : Option TableRef) :
    Confined (setMetatable r metatable) :=
  updateHeap_confined (·.update r ({ · with metatable }))

theorem setCell_confined (r : CellRef) (v : Value) : Confined (setCell r v) :=
  .effect fun m => .memory m m.heap _ m.threads m.faults m.clock

theorem setThread_confined (r : ThreadRef) (t : Thread) : Confined (setThread r t) :=
  .effect fun m => .memory m m.heap m.cells _ m.faults m.clock

theorem note_confined (line : LogLine) : Confined (note line) := .effect fun m => .note m line

theorem global_confined (name : String) : Confined (global name) := .looking fun _ => .pure _

theorem setGlobal_confined (name : String) (v : Value) : Confined (setGlobal name v) :=
  .looking fun m => setRaw_confined m.globals (.text name) v

theorem runCapability_confined (c : Capability) (context : Option ContextRef) (arg : Value) :
    Confined (runCapability c context arg) := fun m => .single (.called m c context arg)

theorem raiseFault_confined (f : Fault) (stack : Stack) : Confined (raiseFault f stack) :=
  .then_pure _ (newFault_confined f)

/-! ## The functions of the language -/

theorem print_confined (depth : Depth) (texts : List String) (rest : List Value) (stack : Stack) :
    Confined (print depth texts rest stack) := by
  induction rest generalizing texts with
  | nil => exact .then_pure _ (note_confined _)
  | cons v rest ih =>
    refine .looking fun m => ?_
    cases m.printed v with
    | handler h args => exact .pure _
    | refusal message => exact .pure _
    | value v =>
      dsimp only
      cases Text.ofUtf8 (v.bytes?.getD .empty) with
      | ok s => exact ih (s :: texts)
      | error e => exact raiseFault_confined _ stack

theorem printMore_confined (depth : Depth) (texts : List String) (rest vs : List Value)
    (stack : Stack) : Confined (printMore depth texts rest vs stack) := by
  unfold printMore
  split
  · exact print_confined depth _ rest stack
  · exact raiseFault_confined _ stack

theorem changeMetatable_confined (r : TableRef) (metatable : Option TableRef) (stack : Stack) :
    Confined (changeMetatable r metatable stack) := by
  refine .looking fun m => ?_
  split
  · exact .pure _
  · exact .then_pure _ (setMetatable_confined r metatable)

theorem runSetMetatable_confined (args : List Value) (stack : Stack) :
    Confined (runSetMetatable args stack) := by
  unfold runSetMetatable
  split
  · exact changeMetatable_confined _ none stack
  · exact changeMetatable_confined _ (some _) stack
  · exact .looking fun m => .pure _
  · exact .looking fun m => .pure _

theorem runCreateThread_confined (args : List Value) (stack : Stack) :
    Confined (runCreateThread args stack) := by
  unfold runCreateThread
  split
  · exact .then_pure _ (newThread_confined _)
  · exact .looking fun m => .pure _

theorem runWrapThread_confined (args : List Value) (stack : Stack) :
    Confined (runWrapThread args stack) := by
  unfold runWrapThread
  split
  · exact .bind (newThread_confined _) fun r => .then_pure _ (newFunction_confined (.resume r))
  · exact .looking fun m => .pure _

theorem resumeThread_confined (depth : Depth) (r : ThreadRef) (placed : Bool) (args : List Value)
    (stack : Stack) : Confined (resumeThread depth r placed args stack) := by
  refine .looking fun m => ?_
  cases m.thread r with
  | running => exact .pure _
  | dead => exact .pure _
  | fresh body => exact .then_pure _ (setThread_confined r .running)
  | suspended own =>
    dsimp only
    split
    · exact .pure _
    · exact .then_pure _ (setThread_confined r .running)

theorem runBuiltin_confined (depth : Depth) (args : List Value) (stack : Stack) (b : Builtin) :
    Confined (runBuiltin depth args stack b) := by
  cases b with
  | print => exact print_confined depth [] args stack
  | type => cases args <;> exact .pure _
  | tostring =>
    cases args with
    | nil => exact .pure _
    | cons v rest => exact .looking fun m => .pure _
  | pcall => cases args <;> exact .pure _
  | error => exact .looking fun m => .pure _
  | assert => exact .pure _
  | setmetatable => exact runSetMetatable_confined args stack
  | getmetatable =>
    cases args with
    | nil => exact .pure _
    | cons v rest => exact .looking fun m => .pure _
  | createThread => exact runCreateThread_confined args stack
  | wrapThread => exact runWrapThread_confined args stack

/-! ## Loading -/

theorem askField_confined (depth : Depth) (v : Value) (name : String) (stack : Stack) :
    Confined (askField depth v name stack) := .looking fun _ => .pure _

theorem storeField_confined (depth : Depth) (subject : Value) (name : String) (v : Value)
    (stack : Stack) : Confined (storeField depth subject name v stack) := by
  refine .looking fun m => ?_
  split
  · exact .then_pure _ (setRaw_confined _ _ v)
  all_goals exact .pure _

theorem startLoading_confined (scripts : MountTable Source) (depth : Depth) (arg : Value)
    (stack : Stack) : Confined (startLoading scripts depth arg stack) := by
  unfold startLoading
  split
  · exact raiseFault_confined _ stack
  · refine .bind (global_confined "package") fun package => ?_
    split
    · exact askField_confined depth _ "loaded" _
    · exact raiseFault_confined _ stack

theorem runModule_confined (request : Request) (modules : Value) (stack : Stack) :
    Confined (runModule request modules stack) := by
  unfold runModule
  split
  · exact raiseFault_confined _ stack
  · exact raiseFault_confined _ stack
  · dsimp only
    split <;> exact .pure _

theorem loading_given_confined (request : Request) (vs : List Value) (stack : Stack)
    (stage : Loading) : Confined (stage.given request vs stack) := by
  cases stage with
  | loaded =>
    rw [Loading.given]
    split
    · exact askField_confined request.depth _ request.name _
    · exact raiseFault_confined _ stack
  | cached modules =>
    rw [Loading.given]
    split
    · exact runModule_confined request modules stack
    · exact .pure _
  | running modules =>
    rw [Loading.given]
    exact storeField_confined request.depth modules request.name _ _
  | storing v => exact .pure _

/-! ## Foreign code -/

theorem foreignFunction_confined (code : Nat) (captured : List Value) :
    Confined (foreignFunction code captured) := by
  cases captured with
  | nil =>
    refine .looking fun m => ?_
    split
    · exact .pure _
    · exact newFunction_confined _
  | cons v vs => exact .bind (.mapM newCell_confined _) fun _ => newFunction_confined _

theorem leaveThread_confined (depth : Depth) (code : Nat) (seen : List (List Value))
    (vs : List Value) (stack : Stack) : Confined (leaveThread depth code seen vs stack) := by
  refine .looking fun m => ?_
  split
  · exact .pure _
  · exact .then_pure _ (setThread_confined _ _)

theorem closeThread_confined (r : ThreadRef) (here stack : Stack) :
    Confined (closeThread r here stack) := by
  refine .looking fun m => ?_
  split
  · exact .pure _
  · exact .then_pure _ (setThread_confined r .dead)

theorem putRaw_confined (r : TableRef) (key value : Value) (here stack : Stack) :
    Confined (putRaw r key value here stack) := by
  unfold putRaw
  split
  · exact .pure _
  · exact .then_pure _ (setRaw_confined r _ value)

theorem obey_confined (depth : Depth) (code : Nat) (seen : List (List Value)) (stack : Stack)
    (o : Order) : Confined (obey depth code seen stack o) := by
  cases o with
  | call f args => exact .looking fun m => .pure _
  | text v => exact .looking fun m => .pure _
  | inspect v => exact .looking fun m => .pure _
  | table => exact .then_pure _ (newTable_confined ∅)
  | put subject key value =>
    cases subject with
    | table r => exact putRaw_confined r key value _ stack
    | _ => exact .pure _
  | function code captured => exact .then_pure _ (foreignFunction_confined code captured)
  | resume thread args =>
    cases thread with
    | thread r => exact resumeThread_confined depth r false args _
    | _ => exact .pure _
  | yield vs => exact leaveThread_confined depth code seen vs stack
  | close thread =>
    cases thread with
    | thread r => exact closeThread_confined r _ stack
    | _ => exact .pure _
  | present => exact .looking fun m => .pure _
  | _ => exact .pure _

theorem goOn_confined (depth : Depth) (code : Nat) (seen : List (List Value)) (stack : Stack) :
    Confined (goOn depth code seen stack) :=
  .looking fun _ => obey_confined depth code seen stack _

/-! ## Steps and runs -/

theorem initial_confined (name : String) (vs : List Value) : Confined (initial name vs) := by
  unfold initial
  split
  · exact .then_pure _ (newTable_confined _)
  · exact .pure _

theorem bind_confined (names : List String) (vs : List Value) (scope : Scope) :
    Confined (bind names vs scope) := by
  induction names generalizing vs scope with
  | nil => exact .pure _
  | cons name names ih =>
    exact .bind (initial_confined name vs) fun v =>
      .bind (newCell_confined v) fun cell => ih vs.tail _

theorem lookUp_confined (site : Site) (name : String) : Confined (lookUp site name) := by
  unfold lookUp
  split
  · exact .looking fun m => .pure _
  · exact global_confined name

theorem assign_confined (site : Site) (name : String) (v : Value) :
    Confined (assign site name v) := by
  unfold assign
  split
  · exact setCell_confined _ v
  · exact setGlobal_confined name v

theorem evaluate_confined (site : Site) (stack : Stack) (e : Expr) :
    Confined (evaluate site stack e) := by
  cases e with
  | var name => exact .then_pure _ (lookUp_confined site name)
  | function params body => exact .then_pure _ (newFunction_confined _)
  | _ => exact .pure _

theorem turn_confined (site : Site) (name : String) (body : Block) (counting : Counting)
    (stack : Stack) : Confined (turn site name body counting stack) := by
  unfold turn
  split
  · exact .pure _
  · exact .then_pure _ (bind_confined [name] _ site.locals)

theorem fill_confined (site : Site) (t : Table) (count : Nat) (stack : Stack)
    (entries : List (Expr × Expr)) : Confined (fill site t count stack entries) := by
  cases entries with
  | nil => exact .then_pure _ (newTable_confined _)
  | cons e rest => exact .pure _

theorem putEntry_confined (site : Site) (t : Table) (count : Nat) (rest : List (Expr × Expr))
    (key value : Value) (stack : Stack) :
    Confined (putEntry site t count rest key value stack) := by
  unfold putEntry
  split
  · exact .pure _
  · exact fill_confined site _ count stack rest

theorem writeField_confined (site : Site) (subject key value : Value) (stack : Stack) :
    Confined (writeField site subject key value stack) := by
  refine .looking fun m => ?_
  split
  · split
    · exact .pure _
    · exact .then_pure _ (setRaw_confined _ _ value)
  all_goals exact .pure _

theorem dump_confined (site : Site) (label : String) (v : Value) (stack : Stack) :
    Confined (dump site label v stack) := by
  refine .looking fun m => ?_
  split
  · exact .then_pure _ (note_confined _)
  · exact .pure _

theorem act_confined (site : Site) (vs : List Value) (stack : Stack) (action : Action) :
    Confined (act site vs stack action) := by
  cases action with
  | index => exact .looking fun m => .pure _
  | equal => exact .looking fun m => .pure _
  | concat => exact .looking fun m => .pure _
  | both e => unfold act; dsimp only; split <;> exact .pure _
  | either e => unfold act; dsimp only; split <;> exact .pure _
  | items entries => exact fill_confined site _ _ stack entries
  | entry t count rest => exact putEntry_confined site t count rest _ _ stack
  | declare names => exact .then_pure _ (bind_confined names vs site.locals)
  | assign name => exact .then_pure _ (assign_confined site name _)
  | set => exact writeField_confined site _ _ _ stack
  | count name body =>
    unfold act
    dsimp only
    split
    · exact turn_confined site name body _ stack
    · exact .pure _
  | dump label => exact dump_confined site label _ stack
  | _ => exact .pure _

theorem find_confined (site : Site) (action : Action) (found : List Operand) (stack : Stack)
    (rest : List Expr) : Confined (find site action found stack rest) := by
  unfold find
  split
  · exact .looking fun m => act_confined site _ stack action
  · split <;> exact .pure _

theorem callClosure_confined (depth : Depth) (tail : Bool) (params : List String) (body : Block)
    (scope : Scope) (args : List Value) (stack : Stack) :
    Confined (callClosure depth tail params body scope args stack) := by
  unfold callClosure
  split
  · exact .pure _
  · exact .then_pure _ (bind_confined params args [])

theorem call_confined (depth : Depth) (tail : Bool) (f : Value) (args : List Value)
    (stack : Stack) : Confined (call depth tail f args stack) := by
  refine .looking fun m => ?_
  cases m.callee f args with
  | refusal message => exact .pure _
  | function r args =>
    dsimp only
    cases m.callable r with
    | closure params body scope =>
      exact callClosure_confined depth tail params body scope args stack
    | builtin b => exact runBuiltin_confined depth args stack b
    | capability c context =>
      refine .bind (runCapability_confined c context (first args)) fun outcome => ?_
      cases outcome with
      | ok v => exact .pure _
      | error f => exact raiseFault_confined f stack
    | require scripts => exact startLoading_confined scripts depth _ stack
    | resume thread => exact resumeThread_confined depth thread true args stack
    | foreign code captured => exact .pure _

theorem raiseToHost_confined (depth : Depth) (v : Value) (stack : Stack) :
    Confined (raiseToHost depth v stack) := by
  refine .looking fun m => ?_
  split
  · exact .looking fun m => raiseFault_confined (m.raised v) stack
  · split
    · exact .pure _
    · exact raiseFault_confined hopeless stack

theorem given_confined (vs : List Value) (stack : Stack) (f : Frame) :
    Confined (f.given vs stack) := by
  cases f with
  | thread r placed => exact .then_pure _ (setThread_confined r .dead)
  | foreign depth code seen => exact goOn_confined depth code _ stack
  | printing depth texts rest => exact printMore_confined depth texts rest vs stack
  | loading request stage => exact loading_given_confined request vs stack stage
  | message depth =>
    rw [Frame.given]
    split
    · exact raiseFault_confined _ stack
    · exact .pure _
  | _ => exact .pure _

theorem passed_confined (site : Site) (stack : Stack) (f : Frame) :
    Confined (f.passed site stack) := by
  cases f with
  | loop outer name body counting => exact turn_confined outer name body counting stack
  | _ => exact .pure _

theorem struck_confined (v : Value) (stack : Stack) (f : Frame) :
    Confined (f.struck v stack) := by
  cases f with
  | thread r placed => exact .then_pure _ (setThread_confined r .dead)
  | host depth => exact raiseToHost_confined depth v stack
  | message depth => exact raiseToHost_confined _ v stack
  | _ => exact .pure _

theorem step_confined (s : State) : Confined (step s) := by
  obtain ⟨control, stack⟩ := s
  cases control with
  | run site block => cases block <;> exact .pure _
  | evaluate site e => exact .then_pure _ (evaluate_confined site stack e)
  | find site action found rest => exact .then_pure _ (find_confined site action found stack rest)
  | call depth tail f args => exact .then_pure _ (call_confined depth tail f args stack)
  | give vs =>
    cases stack with
    | nil => exact .pure _
    | cons f stack => exact .then_pure _ (given_confined vs stack f)
  | next site =>
    cases stack with
    | nil => exact .pure _
    | cons f stack => exact .then_pure _ (passed_confined site stack f)
  | leave vs => cases stack <;> exact .pure _
  | raise v =>
    cases stack with
    | nil => exact .pure _
    | cons f stack => exact .then_pure _ (struck_confined v stack f)
  | refuse level own message => exact .looking fun m => .pure _

theorem stirred_effect (m : Machine) : Effect m m.stirred :=
  .memory m _ m.cells m.threads m.faults _

/-- A run has only effects of scripts, however long it is. -/
theorem runFor_confined (steps : Nat) (s : State) : Confined (runFor steps s) := by
  intro m
  induction steps generalizing s m with
  | zero => exact .refl
  | succ steps ih =>
    have here := step_confined s m
    unfold runFor
    rcases found : step s m with ⟨s' | outcome, m'⟩
    · rw [found] at here
      exact (here.tail (stirred_effect m')).trans (ih s' m'.stirred)
    · rw [found] at here
      exact here

theorem run_confined (s : State) : Confined (run s) := fun m =>
  .head (stirred_effect m) (runFor_confined stepLimit s m.stirred)

end GuildPlan.Script
