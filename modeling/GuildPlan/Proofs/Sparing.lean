import GuildPlan.Proofs.Caches

/-
  What scripts do besides calls of the loader. Whatever a script is at, it leaves alone what the
  loader goes by, if it does not assign there and puts no metatable there. Of loaders only those
  wait for it whose modules run, and no thread can be left meanwhile.
-/
namespace GuildPlan.Script

/-! ## States that the loader's own work is not in -/

/-- A frame that may wait below any other. Of loaders only those wait there whose modules run, and
`R` holds of what they load. -/
def Frame.Fine (c : Cache) (R : Request → Prop) : Frame → Prop
  | .loading request stage => stage = .running (.table c.loaded) ∧ R request
  | _ => True

abbrev Stack.Fine (c : Cache) (R : Request → Prop) (stack : Stack) : Prop :=
  ∀ f ∈ stack, f.Fine c R

/-- A state in which a script is at its own work. -/
abbrev State.Fine (c : Cache) (R : Request → Prop) (s : State) : Prop := Stack.Fine c R s.stack

section
variable {c : Cache} {R : Request → Prop} {stack : Stack}

theorem Stack.Fine.push {f : Frame} (waits : stack.Fine c R) (above : f.Fine c R) :
    Stack.Fine c R (f :: stack) := List.forall_mem_cons.2 ⟨above, waits⟩

/-- No loader waits in a thread that has been left. -/
theorem Suspension.fine (own : Suspension) : Stack.Fine c R own.frames := by
  intro f mem
  have unpinned := own.unpinned f mem
  cases f with
  | loading request stage => cases unpinned
  | _ => trivial

theorem fine_append {own : Stack} (above : own.Fine c R) (waits : stack.Fine c R) :
    Stack.Fine c R (own ++ stack) := List.forall_mem_append.2 ⟨above, waits⟩

namespace State

theorem fine_enter (depth : Depth) (runs : Nat) (f : Value) (args : List Value)
    (waits : stack.Fine c R) : (enter depth runs f args stack).Fine c R := by
  unfold enter
  split
  · exact waits
  · exact waits

theorem fine_answered (depth : Depth) (runs : Nat) (a : Answer) {top : Frame}
    (above : top.Fine c R) (waits : stack.Fine c R) :
    (answered depth runs a top stack).Fine c R := by
  cases a with
  | value v => exact waits
  | handler h args => exact fine_enter depth runs h args (waits.push above)
  | refusal message => exact waits

end State
end

/-! ## The functions of the language -/

section
variable {c : Cache} {R : Request → Prop} {m : Machine} {stack : Stack}

theorem raiseFault_spares (f : Fault) (waits : stack.Fine c R) :
    Spares c (State.Fine c R) (raiseFault f stack) m :=
  .then_pure (newFault_spares f) fun _ _ => waits

theorem raiseAt_fine (level : Nat) (v : Value) (waits : stack.Fine c R) :
    (raiseAt level v stack).Fine c R := by
  unfold raiseAt
  split <;> exact waits

theorem runError_fine (args : List Value) (waits : stack.Fine c R) :
    (runError m args stack).Fine c R := by
  unfold runError
  split
  · exact raiseAt_fine 1 _ waits
  · split
    · exact raiseAt_fine _ _ waits
    · exact waits
    · exact waits

theorem runAssert_fine (args : List Value) (waits : stack.Fine c R) :
    (runAssert args stack).Fine c R := by
  unfold runAssert
  split
  · exact waits
  · split
    · exact waits
    · exact raiseAt_fine 1 _ waits

theorem takeText_fine (vs : List Value) (waits : stack.Fine c R) :
    (takeText vs stack).Fine c R := by
  unfold takeText
  split <;> exact waits

theorem print_spares (depth : Depth) (texts : List String) (rest : List Value)
    (waits : stack.Fine c R) : Spares c (State.Fine c R) (print depth texts rest stack) m := by
  induction rest generalizing texts with
  | nil => exact .then_pure (note_spares _) fun _ _ => waits
  | cons v rest ih =>
    refine .looking fun _ => ?_
    cases m.printed v with
    | handler h args =>
      have line : Stack.Fine c R (.printing depth texts rest :: stack) := waits.push trivial
      have host : Stack.Fine c R (.host depth :: .printing depth texts rest :: stack) :=
        line.push trivial
      exact .pure (State.fine_enter depth 2 h args (host.push trivial))
    | refusal message => exact .pure waits
    | value v =>
      dsimp only
      cases Text.ofUtf8 (v.bytes?.getD .empty) with
      | ok s => exact ih (s :: texts)
      | error e => exact raiseFault_spares _ waits

theorem printMore_spares (depth : Depth) (texts : List String) (rest vs : List Value)
    (waits : stack.Fine c R) :
    Spares c (State.Fine c R) (printMore depth texts rest vs stack) m := by
  unfold printMore
  split
  · exact print_spares depth _ rest waits
  · exact raiseFault_spares _ waits

theorem changeMetatable_spares {r : TableRef} (metatable : Option TableRef)
    (aside : r ≠ c.package ∧ r ≠ c.loaded) (waits : stack.Fine c R) :
    Spares c (State.Fine c R) (changeMetatable r metatable stack) m := by
  refine .looking fun _ => ?_
  split
  · exact .pure waits
  · exact .then_pure (setMetatable_spares metatable aside.2 aside.1) fun _ _ => waits

theorem runSetMetatable_spares {args : List Value} (aside : c.bares args = false)
    (waits : stack.Fine c R) :
    Spares c (State.Fine c R) (runSetMetatable args stack) m := by
  unfold runSetMetatable
  split
  · exact changeMetatable_spares none (by simpa [Cache.bares] using aside) waits
  · exact changeMetatable_spares (some _) (by simpa [Cache.bares] using aside) waits
  · exact .looking fun _ => .pure waits
  · exact .looking fun _ => .pure waits

theorem runCreateThread_spares (args : List Value) (waits : stack.Fine c R) :
    Spares c (State.Fine c R) (runCreateThread args stack) m := by
  unfold runCreateThread
  split
  · exact .then_pure (newThread_spares _) fun _ _ => waits
  · exact .looking fun _ => .pure waits

theorem runWrapThread_spares (args : List Value) (waits : stack.Fine c R) :
    Spares c (State.Fine c R) (runWrapThread args stack) m := by
  unfold runWrapThread
  split
  · exact .bind (newThread_spares _) fun _ =>
      .then_pure (newFunction_spares _) fun _ _ => waits
  · exact .looking fun _ => .pure waits

theorem resumeThread_spares (depth : Depth) (r : ThreadRef) (placed : Bool) (args : List Value)
    (waits : stack.Fine c R) :
    Spares c (State.Fine c R) (resumeThread depth r placed args stack) m := by
  refine .looking fun _ => ?_
  cases m.thread r with
  | running => exact .pure waits
  | dead => exact .pure waits
  | fresh body =>
    exact .then_pure (setThread_spares r .running) fun _ _ =>
      State.fine_enter depth 1 body args (waits.push trivial)
  | suspended own =>
    dsimp only
    split
    · exact .pure waits
    · exact .then_pure (setThread_spares r .running) fun _ _ =>
        fine_append own.fine (waits.push trivial)

theorem runBuiltin_spares (depth : Depth) {args : List Value} (b : Builtin)
    (aside : b = .setmetatable → c.bares args = false) (waits : stack.Fine c R) :
    Spares c (State.Fine c R) (runBuiltin depth args stack b) m := by
  cases b with
  | print => exact print_spares depth [] args waits
  | type => cases args <;> exact .pure waits
  | tostring =>
    cases args with
    | nil => exact .pure waits
    | cons v rest =>
      exact .looking fun _ => .pure (State.fine_answered depth 1 _ trivial waits)
  | pcall =>
    cases args with
    | nil => exact .pure waits
    | cons f rest => exact .pure (State.fine_enter depth 1 f rest (waits.push trivial))
  | error => exact .looking fun _ => .pure (runError_fine args waits)
  | assert => exact .pure (runAssert_fine args waits)
  | setmetatable => exact runSetMetatable_spares (aside rfl) waits
  | getmetatable =>
    cases args with
    | nil => exact .pure waits
    | cons v rest => exact .looking fun _ => .pure waits
  | createThread => exact runCreateThread_spares args waits
  | wrapThread => exact runWrapThread_spares args waits

/-! ## Expressions and statements -/

theorem initial_spares (name : String) (vs : List Value) :
    Spares c (fun _ => True) (initial name vs) m := by
  unfold initial
  split
  · exact .then_pure (newTable_spares _) fun _ _ => trivial
  · exact .pure trivial

theorem bind_spares (names : List String) (vs : List Value) (scope : Scope) :
    Spares c (fun _ => True) (bind names vs scope) m := by
  induction names generalizing vs scope m with
  | nil => exact .pure trivial
  | cons name names ih =>
    exact .bind (initial_spares name vs) fun _ => .bind (newCell_spares _) fun _ => ih _ _

theorem lookUp_spares (site : Site) (name : String) :
    Spares c (fun _ => True) (lookUp site name) m := by
  unfold lookUp
  split
  · exact .looking fun _ => .pure trivial
  · exact global_spares name

theorem assign_spares {site : Site} {name : String} (v : Value)
    (aside : (name = "package" && (site.find? name).isNone) = false) :
    Spares c (fun _ => True) (assign site name v) m := by
  unfold assign
  split
  · exact setCell_spares _ v
  · next free =>
    refine setGlobal_spares v fun same => ?_
    subst same
    simp [free] at aside

theorem fill_spares (site : Site) (t : Table) (count : Nat) (entries : List (Expr × Expr))
    (waits : stack.Fine c R) :
    Spares c (State.Fine c R) (fill site t count stack entries) m := by
  cases entries with
  | nil => exact .then_pure (newTable_spares _) fun _ _ => waits
  | cons e rest => exact .pure waits

theorem evaluate_spares (site : Site) (e : Expr) (waits : stack.Fine c R) :
    Spares c (State.Fine c R) (evaluate site stack e) m := by
  cases e with
  | var name => exact .then_pure (lookUp_spares site name) fun _ _ => waits
  | function params body => exact .then_pure (newFunction_spares _) fun _ _ => waits
  | _ => exact .pure waits

theorem execute_fine (site : Site) (s : Stmt) (waits : stack.Fine c R) :
    (execute site stack s).Fine c R := by
  unfold execute
  split
  all_goals first
    | exact waits
    | exact waits.push trivial

theorem turn_spares (site : Site) (name : String) (body : Block) (counting : Counting)
    (waits : stack.Fine c R) :
    Spares c (State.Fine c R) (turn site name body counting stack) m := by
  unfold turn
  split
  · exact .pure waits
  · exact .then_pure (bind_spares [name] _ site.locals) fun _ _ => waits.push trivial

theorem putEntry_spares (site : Site) (t : Table) (count : Nat) (rest : List (Expr × Expr))
    (key value : Value) (waits : stack.Fine c R) :
    Spares c (State.Fine c R) (putEntry site t count rest key value stack) m := by
  unfold putEntry
  split
  · exact .pure waits
  · exact fill_spares site _ count rest waits

/-- A value may be put wherever it takes the place of nothing that the loader goes by. -/
theorem setRaw_spares_of_aside {r : TableRef} {key key' : Value} (value : Value)
    (aside : c.replaces r key = false) (under : key.key? = some key') :
    Spares c (fun _ => True) (setRaw r key' value) m := by
  simp only [Cache.replaces, under, Option.some.injEq, Bool.or_eq_false_iff,
    Bool.and_eq_false_imp, decide_eq_true_eq, decide_eq_false_iff_not] at aside
  obtain ⟨⟨others, package⟩, globals⟩ := aside
  exact setRaw_spares value others package globals

theorem writeField_spares (site : Site) {subject key : Value} (value : Value)
    (aside : ∀ r, m.aim subject key = .value (.table r) → c.replaces r key = false)
    (waits : stack.Fine c R) :
    Spares c (State.Fine c R) (writeField site subject key value stack) m := by
  refine .looking fun _ => ?_
  cases answer : m.aim subject key with
  | value target =>
    cases target with
    | table r =>
      dsimp only
      split
      · exact .pure waits
      · next under =>
        exact .then_pure (setRaw_spares_of_aside value (aside r answer) under) fun _ _ => waits
    | _ => exact .pure waits
  | handler h args =>
    exact .pure (State.fine_enter site.depth 1 h _ (waits.push trivial))
  | refusal message => exact .pure waits

theorem dump_spares (site : Site) (label : String) (v : Value) (waits : stack.Fine c R) :
    Spares c (State.Fine c R) (dump site label v stack) m := by
  refine .looking fun _ => ?_
  split
  · exact .then_pure (note_spares _) fun _ _ => waits
  · exact .pure waits

theorem enclosing_fine (waits : stack.Fine c R) : Stack.Fine c R (enclosing stack) := by
  induction stack with
  | nil => exact waits
  | cons f stack ih =>
    cases f with
    | body => exact waits
    | _ => exact ih (List.forall_mem_cons.1 waits).2

theorem act_spares (site : Site) (vs : List Value) {action : Action}
    (aside : c.assigns m site vs action = false) (waits : stack.Fine c R) :
    Spares c (State.Fine c R) (act site vs stack action) m := by
  cases action with
  | index => exact .looking fun _ => .pure (State.fine_answered site.depth 1 _ trivial waits)
  | call => exact .pure waits
  | tailCall => exact .pure (enclosing_fine waits)
  | equal => exact .looking fun _ => .pure (State.fine_answered site.depth 1 _ trivial waits)
  | concat => exact .looking fun _ => .pure (State.fine_answered site.depth 1 _ trivial waits)
  | negate => exact .pure waits
  | both e =>
    unfold act
    dsimp only
    split
    · exact .pure (waits.push trivial)
    · exact .pure waits
  | either e =>
    unfold act
    dsimp only
    split
    · exact .pure waits
    · exact .pure (waits.push trivial)
  | native code => exact .pure (waits.push trivial)
  | items entries => exact fill_spares site _ _ entries waits
  | entry t count rest => exact putEntry_spares site t count rest _ _ waits
  | declare names => exact .then_pure (bind_spares names vs site.locals) fun _ _ => waits
  | assign name => exact .then_pure (assign_spares _ aside) fun _ _ => waits
  | set =>
    refine writeField_spares site _ (fun r aimed => ?_) waits
    rwa [Cache.assigns, aimed] at aside
  | answer => exact .pure waits
  | choose yes no => exact .pure (waits.push trivial)
  | count name body =>
    unfold act
    dsimp only
    split
    · exact turn_spares site name body _ waits
    · exact .pure waits
  | dump label => exact dump_spares site label _ waits

theorem find_spares (site : Site) {action : Action} (found : List Operand) (rest : List Expr)
    (aside : c.tampers m ⟨.find site action found rest, stack⟩ = false) (waits : stack.Fine c R) :
    Spares c (State.Fine c R) (find site action found stack rest) m := by
  unfold find
  cases rest with
  | nil => exact .looking fun _ => act_spares site _ aside waits
  | cons e rest =>
    dsimp only
    split
    · exact .pure waits
    · exact .pure (waits.push trivial)

/-! ## Calls and frames -/

theorem callClosure_spares (depth : Depth) (tail : Bool) (params : List String) (body : Block)
    (scope : Scope) (args : List Value) (waits : stack.Fine c R) :
    Spares c (State.Fine c R) (callClosure depth tail params body scope args stack) m := by
  unfold callClosure
  split
  · exact .pure waits
  · refine .then_pure (bind_spares params args []) fun _ _ => ?_
    split
    · exact waits
    · exact waits.push trivial

theorem raiseToHost_spares (depth : Depth) (v : Value) (waits : stack.Fine c R) :
    Spares c (State.Fine c R) (raiseToHost depth v stack) m := by
  refine .looking fun _ => ?_
  split
  · exact .looking fun _ => raiseFault_spares _ waits
  · split
    · exact .pure (State.fine_enter depth 2 _ _ (waits.push trivial))
    · exact raiseFault_spares hopeless waits

/-! ## Foreign code -/

theorem foreignFunction_spares (code : Nat) (captured : List Value) :
    Spares c (fun _ => True) (foreignFunction code captured) m := by
  cases captured with
  | nil =>
    refine .looking fun _ => ?_
    split
    · exact .pure trivial
    · exact newFunction_spares _
  | cons v vs =>
    exact .bind (.mapM (fun v _ => newCell_spares v) _ m) fun _ => newFunction_spares _

theorem leaveThread_spares (depth : Depth) (code : Nat) (seen : List (List Value))
    (vs : List Value) (waits : stack.Fine c R) :
    Spares c (State.Fine c R) (leaveThread depth code seen vs stack) m := by
  refine .looking fun _ => ?_
  split
  · exact .pure waits
  · next parts =>
    obtain ⟨placed, rfl⟩ := parted?_eq parts
    have below := (List.forall_mem_append.1 waits).2
    exact .then_pure (setThread_spares _ _) fun _ _ => (List.forall_mem_cons.1 below).2

variable {here : Stack}

theorem closeThread_spares (r : ThreadRef) (waits : here.Fine c R) (below : stack.Fine c R) :
    Spares c (State.Fine c R) (closeThread r here stack) m := by
  refine .looking fun _ => ?_
  split
  · exact .pure below
  · exact .then_pure (setThread_spares r .dead) fun _ _ => waits

theorem putRaw_spares {r : TableRef} {key : Value} (value : Value)
    (aside : c.replaces r key = false) (waits : here.Fine c R) (below : stack.Fine c R) :
    Spares c (State.Fine c R) (putRaw r key value here stack) m := by
  unfold putRaw
  split
  · exact .pure below
  · next under => exact .then_pure (setRaw_spares_of_aside value aside under) fun _ _ => waits

theorem obey_spares (depth : Depth) (code : Nat) (seen : List (List Value)) {o : Order}
    (aside : c.orders o = false) (waits : stack.Fine c R) :
    Spares c (State.Fine c R) (obey depth code seen stack o) m := by
  have here : Stack.Fine c R (.foreign depth code seen :: stack) := waits.push trivial
  cases o with
  | give vs => exact .pure waits
  | raise v => exact .pure waits
  | refuse level message => exact .pure waits
  | call f args => exact .looking fun _ => .pure (State.fine_enter depth _ f args here)
  | attempt f args => exact .pure (State.fine_enter depth 1 f args (here.push trivial))
  | text v => exact .looking fun _ => .pure (State.fine_answered depth 1 _ trivial here)
  | inspect v => exact .looking fun _ => .pure here
  | table => exact .then_pure (newTable_spares ∅) fun _ _ => here
  | put subject key value =>
    cases subject with
    | table r => exact putRaw_spares value aside here waits
    | _ => exact .pure here
  | function code captured => exact .then_pure (foreignFunction_spares code captured) fun _ _ => here
  | resume thread args =>
    cases thread with
    | thread r => exact resumeThread_spares depth r false args (here.push trivial)
    | _ => exact .pure here
  | yield vs => exact leaveThread_spares depth code seen vs waits
  | close thread =>
    cases thread with
    | thread r => exact closeThread_spares r here waits
    | _ => exact .pure here
  | present => exact .looking fun _ => .pure here

/-! ## Frames -/

/-- What a frame does with values, unless a loader waits there. -/
theorem given_spares (vs : List Value) {f : Frame}
    (other : ∀ request stage, f ≠ .loading request stage)
    (aside : c.tampers m ⟨.give vs, f :: stack⟩ = false)
    (waits : stack.Fine c R) : Spares c (State.Fine c R) (f.given vs stack) m := by
  cases f with
  | operands site action found after => exact .pure waits
  | thread r placed => exact .then_pure (setThread_spares r .dead) fun _ _ => waits
  | foreign depth code seen => exact .looking fun _ => obey_spares depth code _ aside waits
  | text => exact .pure (takeText_fine vs waits)
  | printing depth texts after => exact printMore_spares depth texts after vs waits
  | loading request stage => exact absurd rfl (other request stage)
  | message depth =>
    rw [Frame.given]
    split
    · exact raiseFault_spares _ waits
    · exact .pure (waits.push trivial)
  | _ => exact .pure waits

theorem passed_spares (site : Site) (f : Frame) (waits : stack.Fine c R) :
    Spares c (State.Fine c R) (f.passed site stack) m := by
  cases f with
  | loop outer name body counting => exact turn_spares outer name body counting waits
  | _ => exact .pure waits

theorem left_fine (vs : List Value) (f : Frame) (waits : stack.Fine c R) :
    (f.left vs stack).Fine c R := by
  cases f with
  | _ => exact waits

theorem struck_spares (v : Value) (f : Frame) (waits : stack.Fine c R) :
    Spares c (State.Fine c R) (f.struck v stack) m := by
  cases f with
  | thread r placed =>
    refine .then_pure (setThread_spares r .dead) fun _ _ => ?_
    split
    · exact raiseAt_fine 1 v waits
    · exact waits
  | host depth => exact raiseToHost_spares depth v waits
  | message depth => exact raiseToHost_spares _ v waits
  | _ => exact .pure waits

end
end GuildPlan.Script
