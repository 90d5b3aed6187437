import GuildPlan.Proofs.Handling

/-
  What a step does with values. It comes by no error object of a refused declaration but those
  that there were, unless it is a call that is refused, or makes the error object of a raised
  value for the host; and it does not look at the log. Neither does a run of steps.
-/
namespace GuildPlan.Script

variable {P : Value → Prop}

section
variable {m : Machine} {stack : Stack}

/-! ## Expressions and statements -/

theorem initial_handles (plain : Admits P) (name : String) {vs : List Value}
    (there : ∀ v ∈ vs, P v) : Handles P P (initial name vs) m := by
  unfold initial
  split
  · have all : (Table.ofItems vs).Holds P := Table.holds_ofItems plain there
    exact .then_pure (newTable_handles (all.set (plain (.text "n") rfl) (plain (.int vs.length) rfl)))
      fun _ _ => plain _ rfl
  · exact .pure (first_holds plain there)

theorem bind_handles (plain : Admits P) (names : List String) {vs : List Value}
    (there : ∀ v ∈ vs, P v) (scope : Scope) :
    Handles P (fun _ => True) (bind names vs scope) m := by
  induction names generalizing vs scope m with
  | nil => exact .pure trivial
  | cons name names ih =>
    exact .bind (initial_handles plain name there) fun here =>
      .bind (newCell_handles here) fun _ => ih (tail_holds there) _

theorem lookUp_handles (plain : Admits P) (site : Site) (name : String) :
    Handles P P (lookUp site name) m := by
  unfold lookUp
  split
  · exact .looking (fun _ => rfl) fun h => .pure (h.cell plain _)
  · exact global_handles plain name

theorem assign_handles (plain : Admits P) (site : Site) (name : String) {v : Value} (there : P v) :
    Handles P (fun _ => True) (assign site name v) m := by
  unfold assign
  split
  · exact setCell_handles _ there
  · exact setGlobal_handles plain name there

theorem fill_handles (plain : Admits P) (site : Site) {t : Table} (filled : t.Holds P)
    (count : Nat) (entries : List (Expr × Expr)) (waits : stack.Holds P) :
    Handles P (State.Holds P) (fill site t count stack entries) m := by
  cases entries with
  | nil =>
    exact .then_pure (newTable_handles filled) fun _ _ => State.holds_give_one (plain _ rfl) waits
  | cons e rest => exact .pure (State.holds_start site _ filled waits)

theorem evaluate_handles (plain : Admits P) (site : Site) (e : Expr) (waits : stack.Holds P) :
    Handles P (State.Holds P) (evaluate site stack e) m := by
  cases e with
  | var name =>
    exact .then_pure (lookUp_handles plain site name) fun _ there =>
      State.holds_give_one there waits
  | function params body =>
    exact .then_pure (newFunction_handles plain _) fun _ there => State.holds_give_one there waits
  | nil => exact .pure (State.holds_give_one (plain _ rfl) waits)
  | bool b => exact .pure (State.holds_give_one (plain _ rfl) waits)
  | int n => exact .pure (State.holds_give_one (plain _ rfl) waits)
  | float x => exact .pure (State.holds_give_one (plain _ rfl) waits)
  | str bytes => exact .pure (State.holds_give_one (plain _ rfl) waits)
  | _ => exact .pure (State.holds_start site _ trivial waits)

theorem execute_holds (site : Site) (s : Stmt) (waits : stack.Holds P) :
    (execute site stack s).Holds P := by
  unfold execute
  split
  all_goals first
    | exact State.holds_start site _ trivial waits
    | exact ⟨trivial, waits.push trivial⟩

theorem turn_handles (plain : Admits P) (site : Site) (name : String) (body : Block)
    (counting : Counting) (waits : stack.Holds P) :
    Handles P (State.Holds P) (turn site name body counting stack) m := by
  unfold turn
  split
  · exact .pure ⟨trivial, waits⟩
  · next v counting' counted =>
    have there : P v := by
      refine plain v ?_
      unfold Counting.next? at counted
      split at counted <;> cases counted <;> rfl
    exact .then_pure (bind_handles plain [name] (List.forall_mem_singleton.2 there) site.locals)
      fun _ _ => ⟨trivial, waits.push trivial⟩

theorem putEntry_handles (plain : Admits P) (site : Site) {t : Table} (filled : t.Holds P)
    (count : Nat) (rest : List (Expr × Expr)) {key value : Value} (under : P key) (there : P value)
    (waits : stack.Holds P) :
    Handles P (State.Holds P) (putEntry site t count rest key value stack) m := by
  unfold putEntry
  split
  · exact .pure (State.holds_refuse _ waits)
  · next found =>
    have under := holds_key plain under found
    exact fill_handles plain site (filled.withEntry count under there) count rest waits

theorem writeField_handles (plain : Admits P) (site : Site) {subject key value : Value}
    (into : P subject) (under : P key) (there : P value) (waits : stack.Holds P) :
    Handles P (State.Holds P) (writeField site subject key value stack) m := by
  refine .looking (fun _ => ?_) fun h => ?_
  · unfold Machine.aim
    rw [Machine.aimWithin_preceded]
  · have aimed := h.aim plain into under
    have statement : Stack.Holds P (.statement site :: stack) := waits.push trivial
    cases answer : m.aim subject key with
    | value target =>
      cases target with
      | table r =>
        dsimp only
        split
        · exact .pure (State.holds_refuse _ waits)
        · next found =>
          have under := holds_key plain under found
          exact .then_pure (setRaw_handles r under there) fun _ _ => ⟨trivial, waits⟩
      | _ => exact .pure ⟨trivial, waits⟩
    | handler handler args =>
      rw [answer] at aimed
      refine .pure (State.holds_enter site.depth 1 aimed.1 ?_ statement)
      exact List.forall_mem_append.2 ⟨aimed.2, List.forall_mem_singleton.2 there⟩
    | refusal message => exact .pure (State.holds_refuseAt 1 message waits)

theorem dump_handles (site : Site) (label : String) (v : Value)
    (waits : stack.Holds P) : Handles P (State.Holds P) (dump site label v stack) m := by
  refine .looking (fun _ => rfl) fun _ => ?_
  split
  · exact .then_pure (note_handles _) fun _ _ => ⟨trivial, waits⟩
  · exact .pure (State.holds_refuse _ waits)

theorem enclosing_holds (waits : stack.Holds P) : Stack.Holds P (enclosing stack) := by
  induction stack with
  | nil => exact waits
  | cons f stack ih =>
    cases f with
    | body => exact waits
    | _ => exact ih (List.forall_mem_cons.1 waits).2

theorem act_handles (plain : Admits P) (site : Site) {vs : List Value} (there : ∀ v ∈ vs, P v)
    {action : Action} (taken : action.Holds P) (waits : stack.Holds P) :
    Handles P (State.Holds P) (act site vs stack action) m := by
  have a : P (first vs) := first_holds plain there
  have b : P (first vs.tail) := first_holds plain (tail_holds there)
  cases action with
  | index =>
    refine .looking (fun _ => ?_) fun h => .pure ?_
    · unfold Machine.look
      rw [Machine.lookWithin_preceded]
    · exact State.holds_answered site.depth 1 (h.look plain a b) trivial waits
  | call => exact .pure ⟨⟨a, tail_holds there⟩, waits⟩
  | tailCall => exact .pure ⟨⟨a, tail_holds there⟩, enclosing_holds waits⟩
  | equal =>
    exact .looking (fun _ => rfl) fun h => .pure
      (State.holds_answered site.depth 1 (h.compare plain _ _) trivial waits)
  | concat =>
    exact .looking (fun _ => rfl) fun h => .pure
      (State.holds_answered site.depth 1 (h.join plain a b) trivial waits)
  | negate => exact .pure (State.holds_give_one (plain _ rfl) waits)
  | native code =>
    have nothing : ∀ vs ∈ [([] : List Value)], ∀ v ∈ vs, P v := by simp
    exact .pure ⟨there, waits.push nothing⟩
  | both e =>
    unfold act
    dsimp only
    refine .pure ?_
    split
    · exact ⟨trivial, waits.push trivial⟩
    · exact State.holds_give_one a waits
  | either e =>
    unfold act
    dsimp only
    refine .pure ?_
    split
    · exact State.holds_give_one a waits
    · exact ⟨trivial, waits.push trivial⟩
  | items entries =>
    exact fill_handles plain site (Table.holds_ofItems plain there) vs.length entries waits
  | entry t count rest => exact putEntry_handles plain site taken count rest a b waits
  | declare names =>
    exact .then_pure (bind_handles plain names there site.locals) fun _ _ => ⟨trivial, waits⟩
  | assign name => exact .then_pure (assign_handles plain site name a) fun _ _ => ⟨trivial, waits⟩
  | set =>
    exact writeField_handles plain site a b (first_holds plain (tail_holds (tail_holds there)))
      waits
  | answer => exact .pure ⟨there, waits⟩
  | choose yes no => exact .pure ⟨trivial, waits.push trivial⟩
  | count name body =>
    unfold act
    dsimp only
    split
    · exact turn_handles plain site name body _ waits
    · exact .pure (State.holds_refuse _ waits)
  | dump label => exact dump_handles site label _ waits

theorem find_handles (plain : Admits P) (site : Site) {action : Action}
    (taken : action.Holds P) {found : List Operand} (there : ∀ o ∈ found, o.Holds P) (rest : List Expr) (waits : stack.Holds P) :
    Handles P (State.Holds P) (find site action found stack rest) m := by
  unfold find
  split
  · refine .looking (fun _ => ?_) fun h => act_handles plain site ?_ taken waits
    · rfl
    · intro v mem
      obtain ⟨o, among, rfl⟩ := List.mem_map.1 mem
      exact h.operand plain (there o (List.mem_reverse.1 among))
  · split
    · exact .pure ⟨⟨taken, List.forall_mem_cons.2 ⟨trivial, there⟩⟩, waits⟩
    · exact .pure ⟨trivial, waits.push ⟨taken, there⟩⟩

/-! ## Calls -/

theorem callClosure_handles (plain : Admits P) (depth : Depth) (tail : Bool)
    (params : List String) (body : Block) (scope : Scope) {args : List Value}
    (given : ∀ v ∈ args, P v) (waits : stack.Holds P) :
    Handles P (State.Holds P) (callClosure depth tail params body scope args stack) m := by
  unfold callClosure
  split
  · exact .pure (State.holds_refuse _ waits)
  · refine .then_pure (bind_handles plain params given []) fun _ _ => ⟨trivial, ?_⟩
    dsimp only
    split
    · exact waits
    · exact waits.push trivial

/-- A call of a capability that is refused. -/
inductive Refuses (m : Machine) : State → Invalid → Prop
  | call {depth : Depth} {tail : Bool} {f : Value} {args args' : List Value} {stack : Stack}
    {r : FunctionRef} {c : Capability} {context : Option ContextRef} {e : Invalid} :
    m.callee f args = .function r args' → m.callable r = .capability c context →
    (runCapability c context (first args') m).1 = .error (.invalid e) →
    Refuses m ⟨.call depth tail f args, stack⟩ e

/-- What a step raises. -/
def Raises (m : Machine) (s : State) (v : Value) : Prop :=
  ∃ stack m', step s m = (.going ⟨.raise v, stack⟩, m')

theorem runCapability_error {c : Capability} {context : Option ContextRef} {arg : Value}
    {f : Fault} (refused : (runCapability c context arg m).1 = .error f) : ∃ e, f = .invalid e := by
  have reply := runCapability_reply c context arg m
  generalize runCapability c context arg m = result at reply refused
  cases reply with
  | refused =>
    cases refused
    exact ⟨_, rfl⟩
  | checked => cases refused
  | declared => cases refused

/-- A refused call raises an error object that tells why. -/
theorem step_of_refused {depth : Depth} {tail : Bool} {f : Value} {args args' : List Value}
    {r : FunctionRef} {c : Capability} {context : Option ContextRef} {e : Invalid}
    (callee : m.callee f args = .function r args')
    (callable : m.callable r = .capability c context)
    (refused : (runCapability c context (first args') m).1 = .error (.invalid e)) :
    Raises m ⟨.call depth tail f args, stack⟩
      (.fault (runCapability c context (first args') m).2.faults (.invalid e)) := by
  have called : ∃ m', call depth tail f args stack m = (⟨.raise (.fault
      (runCapability c context (first args') m).2.faults (.invalid e)), stack⟩, m') := by
    unfold call
    rw [run_get_bind, callee]
    dsimp only
    rw [callable]
    dsimp only
    rw [run_bind, refused]
    exact ⟨_, rfl⟩
  obtain ⟨m', called⟩ := called
  refine ⟨stack, m', ?_⟩
  show (Status.going (call depth tail f args stack m).1, (call depth tail f args stack m).2) = _
  rw [called]

theorem Raises.unique {s : State} {v v' : Value} (h : Raises m s v) (h' : Raises m s v') :
    v = v' := by
  obtain ⟨_, _, steps⟩ := h
  obtain ⟨_, _, steps'⟩ := h'
  cases steps.symm.trans steps'
  rfl

theorem Refuses.refusal {s : State} {e : Invalid} {v : Value} (refuses : Refuses m s e)
    (raises : Raises m s v) : v.refusal? = some e := by
  cases refuses with
  | call callee callable refused =>
    rw [raises.unique (step_of_refused callee callable refused)]
    rfl

theorem call_handles (plain : Admits P) (depth : Depth) (tail : Bool) {f : Value}
    {args : List Value} (there : P f) (given : ∀ v ∈ args, P v) (waits : stack.Holds P)
    (made : ∀ e v, Refuses m ⟨.call depth tail f args, stack⟩ e →
      Raises m ⟨.call depth tail f args, stack⟩ v → P v) :
    Handles P (State.Holds P) (call depth tail f args stack) m := by
  refine .looking (fun lines => ?_) fun h => ?_
  · unfold Machine.callee
    rw [Machine.calleeWithin_preceded]
    rfl
  · cases callee : m.callee f args with
    | refusal message => exact .pure (State.holds_refuseAt 1 message waits)
    | function r args' =>
      have given' := h.callee plain there given callee
      dsimp only
      cases callable : m.callable r with
      | closure params body scope =>
        exact callClosure_handles plain depth tail params body scope given' waits
      | builtin b => exact runBuiltin_handles plain depth given' waits b
      | capability c context =>
        refine .bind (runCapability_handles plain c context _) fun back => ?_
        cases result : (runCapability c context (first args') m).1 with
        | ok v =>
          rw [result] at back
          exact .pure (State.holds_give_one back waits)
        | error fault =>
          obtain ⟨e, rfl⟩ := runCapability_error result
          exact raiseFault_handles
            (made e _ (.call callee callable result) (step_of_refused callee callable result)) waits
      | require scripts => exact startLoading_handles plain scripts depth _ waits
      | resume thread => exact resumeThread_handles depth thread true given' waits
      | foreign code captured =>
        have seen : ∀ vs ∈ [captured.map m.cell], ∀ v ∈ vs, P v :=
          List.forall_mem_singleton.2 (List.forall_mem_map.2 fun r _ => h.cell plain r)
        exact .pure ⟨given', waits.push seen⟩

/-! ## What frames do -/

/-- A frame at which a raised value becomes an error object. -/
def Frame.convertsRaised : Frame → Bool
  | .host _ | .message _ => true
  | _ => false

theorem raiseToHost_handles (plain : Admits P) (depth : Depth) {v : Value} (there : P v)
    (waits : stack.Holds P)
    (made : m.handler "__tostring" v = .nil → P (.fault m.faults (m.raised v))) :
    Handles P (State.Holds P) (raiseToHost depth v stack) m := by
  refine .looking (fun _ => rfl) fun h => ?_
  have holds := h.handler plain "__tostring" v
  split
  · next none => exact .looking (fun _ => rfl) fun _ => raiseFault_handles (made none) waits
  · split
    · exact .pure (State.holds_enter depth 2 holds (List.forall_mem_singleton.2 there)
        (waits.push trivial))
    · exact raiseText_handles plain _ waits

/-- A value that no handler turns into text is told by an error object. -/
theorem step_converted {f : Frame} (converts : f.convertsRaised = true) {v : Value}
    (none : m.handler "__tostring" v = .nil) (stack : Stack) :
    step ⟨.raise v, f :: stack⟩ m = (.going ⟨.raise (.fault m.faults (m.raised v)), stack⟩,
      { m with faults := m.faults + 1 }) := by
  have raised : ∀ depth, raiseToHost depth v stack m =
      (⟨.raise (.fault m.faults (m.raised v)), stack⟩, { m with faults := m.faults + 1 }) := by
    intro depth
    unfold raiseToHost
    rw [run_get_bind, none]
    rfl
  cases f with
  | host depth =>
    show (Status.going (raiseToHost depth v stack m).1, (raiseToHost depth v stack m).2) = _
    rw [raised]
  | message depth =>
    show (Status.going (raiseToHost _ v stack m).1, (raiseToHost _ v stack m).2) = _
    rw [raised]
  | _ => cases converts

theorem given_handles (plain : Admits P) {vs : List Value} (there : ∀ v ∈ vs, P v)
    (waits : stack.Holds P) {f : Frame} (top : f.Holds P) :
    Handles P (State.Holds P) (f.given vs stack) m := by
  have here := first_holds plain there
  cases f with
  | operands site action found after =>
    refine .pure ⟨⟨top.1, ?_⟩, waits⟩
    refine List.forall_mem_append.2 ⟨fun o mem => ?_, top.2⟩
    obtain ⟨v, among, rfl⟩ := List.mem_map.1 mem
    rw [List.mem_reverse] at among
    split at among
    · exact there v among
    · exact List.mem_singleton.1 among ▸ here
  | one => exact .pure (State.holds_give_one here waits)
  | truth => exact .pure (State.holds_give_one (plain _ rfl) waits)
  | statement site => exact .pure ⟨trivial, waits⟩
  | guard =>
    exact .pure (State.holds_give (List.forall_mem_cons.2 ⟨plain _ rfl, there⟩) waits)
  | thread r placed =>
    exact .then_pure (setThread_handles r trivial) fun _ _ => State.holds_give there waits
  | text => exact .pure (takeText_holds plain vs waits)
  | printing depth texts after => exact printMore_handles plain depth texts top vs waits
  | loading request stage => exact loading_given_handles plain request there waits top
  | foreign depth code seen =>
    refine goOn_handles plain depth code ?_ waits
    exact List.forall_mem_append.2 ⟨top, List.forall_mem_singleton.2 there⟩
  | message depth =>
    rw [Frame.given]
    split
    · exact raiseText_handles plain _ waits
    · exact .pure (State.holds_raise (plain _ rfl) (waits.push trivial))
  | _ => exact .pure (State.holds_give there waits)

theorem passed_handles (plain : Admits P) (site : Site) (waits : stack.Holds P) (f : Frame) :
    Handles P (State.Holds P) (f.passed site stack) m := by
  cases f with
  | loop outer name body counting => exact turn_handles plain outer name body counting waits
  | body => exact .pure (State.holds_give (List.forall_mem_nil _) waits)
  | _ => exact .pure ⟨trivial, waits⟩

theorem left_holds {vs : List Value} (there : ∀ v ∈ vs, P v) (waits : stack.Holds P) (f : Frame) :
    (f.left vs stack).Holds P := by
  cases f with
  | _ => exact ⟨there, waits⟩

theorem struck_handles (plain : Admits P) {v : Value} (there : P v) (waits : stack.Holds P)
    (f : Frame) (made : f.convertsRaised = true → m.handler "__tostring" v = .nil →
      P (.fault m.faults (m.raised v))) :
    Handles P (State.Holds P) (f.struck v stack) m := by
  cases f with
  | guard =>
    refine .pure (State.holds_give (List.forall_mem_cons.2 ⟨plain _ rfl, ?_⟩) waits)
    exact List.forall_mem_singleton.2 there
  | thread r placed =>
    refine .then_pure (setThread_handles r trivial) fun _ _ => ?_
    split
    · exact raiseAt_holds 1 there waits
    · exact State.holds_raise there waits
  | host depth => exact raiseToHost_handles plain depth there waits (made rfl)
  | message depth => exact raiseToHost_handles plain _ there waits (made rfl)
  | _ => exact .pure (State.holds_raise there waits)

/-! ## Steps -/

/-- What holds of the state that a step leads to, or of the values in which it ends. -/
def Status.Holds (P : Value → Prop) : Status → Prop
  | .going s => s.Holds P
  | .ended (.ok vs) => ∀ v ∈ vs, P v
  | .ended (.error v) => P v

/-- A step keeps what holds of the values in a machine and in a state, if it holds of the error
object that the step raises, should it be a call that is refused, or that it makes of a raised
value. -/
theorem step_handles (plain : Admits P) {s : State} (there : s.Holds P)
    (refused : ∀ e v, Refuses m s e → Raises m s v → P v)
    (converted : ∀ v f stack, s = ⟨.raise v, f :: stack⟩ → f.convertsRaised = true →
      m.handler "__tostring" v = .nil → P (.fault m.faults (m.raised v))) :
    Handles P (Status.Holds P) (step s) m := by
  obtain ⟨control, stack⟩ := s
  obtain ⟨here, waits⟩ := there
  cases control with
  | run site block =>
    cases block with
    | nil => exact .pure ⟨trivial, waits⟩
    | cons s rest => exact .pure (execute_holds site s (waits.push trivial))
  | evaluate site e =>
    exact .then_pure (evaluate_handles plain site e waits) fun _ going => going
  | find site action found rest =>
    exact .then_pure (find_handles plain site here.1 here.2 rest waits) fun _ going => going
  | call depth tail f args =>
    exact .then_pure (call_handles plain depth tail here.1 here.2 waits refused)
      fun _ going => going
  | give vs =>
    cases stack with
    | nil => exact .pure here
    | cons f stack =>
      obtain ⟨top, waits⟩ := List.forall_mem_cons.1 waits
      exact .then_pure (given_handles plain here waits top) fun _ going => going
  | next site =>
    cases stack with
    | nil => exact .pure (List.forall_mem_nil _)
    | cons f stack =>
      obtain ⟨_, waits⟩ := List.forall_mem_cons.1 waits
      exact .then_pure (passed_handles plain site waits f) fun _ going => going
  | leave vs =>
    cases stack with
    | nil => exact .pure here
    | cons f stack =>
      obtain ⟨_, waits⟩ := List.forall_mem_cons.1 waits
      exact .pure (left_holds here waits f)
  | raise v =>
    cases stack with
    | nil => exact .pure here
    | cons f stack =>
      obtain ⟨_, waits⟩ := List.forall_mem_cons.1 waits
      refine .then_pure (struck_handles plain here waits f fun converts none => ?_)
        fun _ going => going
      exact converted v f stack rfl converts none
  | refuse level own message =>
    exact .looking (fun _ => rfl) fun _ => .pure ⟨plain _ rfl, waits⟩

end

/-! ## The log -/

theorem Operand.holds_true (o : Operand) : o.Holds fun _ => True := by
  rcases o with _ | _ <;> trivial

theorem Action.holds_true (action : Action) : action.Holds fun _ => True := by
  cases action with
  | entry t count rest => exact fun _ _ => ⟨trivial, trivial⟩
  | _ => trivial

theorem Stack.holds_true (stack : Stack) : Stack.Holds (fun _ => True) stack := by
  intro f _
  cases f with
  | operands site action found rest => exact ⟨action.holds_true, fun o _ => o.holds_true⟩
  | printing depth texts rest => exact fun _ _ => trivial
  | loading request stage => cases stage <;> trivial
  | foreign depth code seen => exact fun _ _ _ _ => trivial
  | _ => trivial

theorem State.holds_true (s : State) : s.Holds fun _ => True := by
  obtain ⟨control, stack⟩ := s
  refine ⟨?_, Stack.holds_true stack⟩
  cases control with
  | find site action found rest => exact ⟨action.holds_true, fun o _ => o.holds_true⟩
  | call depth tail f args => exact ⟨trivial, fun _ _ => trivial⟩
  | give vs => exact fun _ _ => trivial
  | leave vs => exact fun _ _ => trivial
  | _ => trivial

theorem Machine.holds_true (m : Machine) : m.Holds fun _ => True := by
  refine ⟨fun _ _ _ _ => ⟨trivial, trivial⟩, fun _ _ => trivial, fun t _ => ?_⟩
  cases t with
  | suspended own => exact Stack.holds_true own.frames
  | _ => trivial

/-- A step does not look at the log. -/
theorem step_preceded (s : State) (m : Machine) (lines : Array LogLine) :
    step s (m.preceded lines) = ((step s m).1, (step s m).2.preceded lines) :=
  (step_handles (fun _ _ => trivial) s.holds_true (fun _ _ _ _ => trivial)
    (fun _ _ _ _ _ _ => trivial) m.holds_true).2.2 lines

/-- Nor does a run, however long it is. -/
theorem runFor_preceded (steps : Nat) (s : State) (m : Machine) (lines : Array LogLine) :
    runFor steps s (m.preceded lines) =
      ((runFor steps s m).1, (runFor steps s m).2.preceded lines) := by
  induction steps generalizing s m with
  | zero => rfl
  | succ steps ih =>
    unfold runFor
    rw [step_preceded]
    rcases step s m with ⟨s' | outcome, m'⟩
    · exact ih s' m'.stirred
    · rfl

end GuildPlan.Script
