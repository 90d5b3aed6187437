import GuildPlan.Proofs.Holding
import GuildPlan.Proofs.Replies
import GuildPlan.Script.Interpreter

/-
  What a script's functions do with values. Whatever holds of every value that is no refused
  declaration's error object, and of those objects that there are already, holds of all values
  that a function comes by: it copies values and makes plain ones. What it does is the same
  whatever the log is.
-/
namespace GuildPlan.Script

variable {P : Value → Prop}

/-! ## Actions -/

variable {α β : Type}

/-- Something done to a machine: from a machine that `P` holds of it comes to a result that `Q`
holds of, and to a machine that `P` holds of again, and it comes to the same whatever lines the
log begins with. -/
def Handles (P : Value → Prop) (Q : α → Prop) (x : Run α) (m : Machine) : Prop :=
  m.Holds P → Q (x m).1 ∧ (x m).2.Holds P ∧
    ∀ lines, x (m.preceded lines) = ((x m).1, (x m).2.preceded lines)

namespace Handles
variable {Q : α → Prop} {R : β → Prop} {m : Machine}

theorem pure {a : α} (here : Q a) : Handles P Q (Pure.pure a) m := fun h => ⟨here, h, fun _ => rfl⟩

theorem bind {x : Run α} {f : α → Run β} (first : Handles P Q x m)
    (rest : Q (x m).1 → Handles P R (f (x m).1) (x m).2) : Handles P R (x >>= f) m := by
  intro h
  obtain ⟨here, kept, blind⟩ := first h
  obtain ⟨there, kept', blind'⟩ := rest here kept
  refine ⟨there, kept', fun lines => ?_⟩
  show f (x (m.preceded lines)).1 (x (m.preceded lines)).2 = _
  rw [blind]
  exact blind' lines

/-- What ends in a value that is made of what was done before. -/
theorem then_pure {x : Run α} {f : α → β} (first : Handles P Q x m) (made : ∀ a, Q a → R (f a)) :
    Handles P R (x >>= fun a => Pure.pure (f a)) m :=
  first.bind fun here => .pure (made _ here)

/-- What is done after a look at the machine, but not at its log. -/
theorem looking {f : Machine → Run α} (blind : ∀ lines, f (m.preceded lines) = f m)
    (rest : m.Holds P → Handles P Q (f m) m) : Handles P Q (MonadState.get >>= f) m := by
  intro h
  obtain ⟨here, kept, blind'⟩ := rest h h
  refine ⟨here, kept, fun lines => ?_⟩
  show f (m.preceded lines) (m.preceded lines) = _
  rw [blind]
  exact blind' lines

theorem mapM {f : α → Run β} {xs : List α} (each : ∀ a ∈ xs, ∀ m, Handles P R (f a) m)
    (m : Machine) : Handles P (fun bs => ∀ b ∈ bs, R b) (xs.mapM f) m := by
  induction xs generalizing m with
  | nil =>
    rw [List.mapM_nil]
    exact .pure (List.forall_mem_nil _)
  | cons x xs ih =>
    obtain ⟨first, others⟩ := List.forall_mem_cons.1 each
    rw [List.mapM_cons]
    exact .bind (first m) fun here =>
      .then_pure (ih others _) fun _ there => List.forall_mem_cons.2 ⟨here, there⟩

end Handles

/-! ## The machine's own operations -/

section
variable {m : Machine}

theorem newTable_handles {t : Table} (there : t.Holds P) :
    Handles P (fun _ => True) (newTable t) m := fun h =>
  ⟨trivial, h.heap fun t' mem => (Array.mem_push.1 mem).elim (h.tables t') (· ▸ there),
    fun _ => rfl⟩

theorem newFunction_handles (plain : Admits P) (c : Callable) :
    Handles P P (newFunction c) m := fun h =>
  ⟨plain _ rfl, ⟨h.tables, h.cells, h.threads⟩, fun _ => rfl⟩

theorem newCell_handles {v : Value} (there : P v) :
    Handles P (fun _ => True) (newCell v) m := fun h =>
  ⟨trivial, ⟨h.tables, fun v' mem => (Array.mem_push.1 mem).elim (h.cells v') (· ▸ there),
    h.threads⟩, fun _ => rfl⟩

theorem newThread_handles {body : Value} (there : P body) :
    Handles P (fun _ => True) (newThread body) m := fun h =>
  ⟨trivial, ⟨h.tables, h.cells, fun t mem =>
    (Array.mem_push.1 mem).elim (h.threads t) fun same => same ▸ there⟩, fun _ => rfl⟩

theorem updateHeap_handles (r : TableRef) {f : Table → Table}
    (kept : ∀ t : Table, t.Holds P → (f t).Holds P) :
    Handles P (fun _ => True) (modify fun m => { m with heap := m.heap.update r f } : Run Unit) m :=
  fun h => ⟨trivial, h.update r kept, fun _ => rfl⟩

theorem setRaw_handles (r : TableRef) {key value : Value} (under : P key) (there : P value) :
    Handles P (fun _ => True) (setRaw r key value) m :=
  updateHeap_handles r fun _ h => h.set under there

theorem setMetatable_handles (r : TableRef) (metatable : Option TableRef) :
    Handles P (fun _ => True) (setMetatable r metatable) m :=
  updateHeap_handles r fun _ h => h

theorem setCell_handles (r : CellRef) {v : Value} (there : P v) :
    Handles P (fun _ => True) (setCell r v) m := fun h =>
  ⟨trivial, ⟨h.tables, fun v' mem =>
    (Array.mem_or_eq_of_mem_setIfInBounds mem).elim (h.cells v') (· ▸ there), h.threads⟩,
    fun _ => rfl⟩

theorem setThread_handles (r : ThreadRef) {t : Thread} (there : t.Holds P) :
    Handles P (fun _ => True) (setThread r t) m := fun h =>
  ⟨trivial, ⟨h.tables, h.cells, fun t' mem =>
    (Array.mem_or_eq_of_mem_setIfInBounds mem).elim (h.threads t') (· ▸ there)⟩, fun _ => rfl⟩

theorem note_handles (line : LogLine) : Handles P (fun _ => True) (note line) m := fun h =>
  ⟨trivial, ⟨h.tables, h.cells, h.threads⟩, fun lines => by
    show ((), Machine.noted _ line) = ((), Machine.preceded lines (m.noted line))
    simp [Machine.noted, Machine.preceded]⟩

theorem global_handles (plain : Admits P) (name : String) : Handles P P (global name) m :=
  .looking (fun _ => rfl) fun h => .pure ((h.table _).get plain _)

theorem setGlobal_handles (plain : Admits P) (name : String) {v : Value} (there : P v) :
    Handles P (fun _ => True) (setGlobal name v) m :=
  .looking (fun _ => rfl) fun _ => setRaw_handles _ (plain (.text name) rfl) there

/-- A new error object is the only value that need not be there before. -/
theorem newFault_handles {f : Fault} (made : P (.fault m.faults f)) :
    Handles P P (newFault f) m := fun h =>
  ⟨made, ⟨h.tables, h.cells, h.threads⟩, fun _ => rfl⟩

theorem newContext_handles : Handles P (fun _ => True) newContext m := fun h =>
  ⟨trivial, ⟨h.tables, h.cells, h.threads⟩, fun _ => rfl⟩

theorem setContext_handles (r : ContextRef) (c : Context) :
    Handles P (fun _ => True) (setContext r c) m := fun h =>
  ⟨trivial, ⟨h.tables, h.cells, h.threads⟩, fun _ => rfl⟩

/-! ## Exchange with the host -/

theorem leave_handles (location : Location) (v : Value) :
    Handles P (fun _ => True) (leave location v) m := by
  intro h
  unfold leave
  simp only [run_modifyGet, Machine.preceded]
  cases toJson m.heap location v m.registry with
  | ok j registry => exact ⟨trivial, ⟨h.tables, h.cells, h.threads⟩, fun _ => rfl⟩
  | error e registry => exact ⟨trivial, ⟨h.tables, h.cells, h.threads⟩, fun _ => rfl⟩

mutual

/-- What comes in from the host has no error objects in it. -/
theorem ofJson_holds (plain : Admits P) (g : Registry) : ∀ (v : Json) (heap : Heap),
    (∀ t ∈ heap, t.Holds P) → P (ofJson g v heap).1 ∧ ∀ t ∈ (ofJson g v heap).2, t.Holds P
  | .null, heap, h => ⟨plain _ rfl, h⟩
  | .bool _, heap, h => ⟨plain _ rfl, h⟩
  | .int n, heap, h => by
    unfold ofJson
    exact ⟨by split <;> exact plain _ rfl, h⟩
  | .float _, heap, h => ⟨plain _ rfl, h⟩
  | .str _, heap, h => ⟨plain _ rfl, h⟩
  | .arr items, heap, h => by
    obtain ⟨each, kept⟩ := ofItems_holds plain g items heap h
    unfold ofJson
    exact ⟨plain _ rfl, fun t mem =>
      (Array.mem_push.1 mem).elim (kept t) (· ▸ Table.holds_ofItems plain each)⟩
  | .obj members, heap, h => by
    obtain ⟨each, kept⟩ := ofMembers_holds plain g members heap h
    unfold ofJson
    cases (Json.marker? (.obj members)).bind g.get? with
    | some f => exact ⟨plain _ rfl, h⟩
    | none =>
      exact ⟨plain _ rfl, fun t mem =>
        (Array.mem_push.1 mem).elim (kept t) (· ▸ Table.holds_ofFields plain each)⟩

theorem ofItems_holds (plain : Admits P) (g : Registry) : ∀ (vs : List Json) (heap : Heap),
    (∀ t ∈ heap, t.Holds P) →
      (∀ v ∈ (ofItems g vs heap).1, P v) ∧ ∀ t ∈ (ofItems g vs heap).2, t.Holds P
  | [], heap, h => ⟨List.forall_mem_nil _, h⟩
  | v :: vs, heap, h => by
    obtain ⟨here, kept⟩ := ofJson_holds plain g v heap h
    obtain ⟨others, kept'⟩ := ofItems_holds plain g vs _ kept
    unfold ofItems
    exact ⟨List.forall_mem_cons.2 ⟨here, others⟩, kept'⟩

theorem ofMembers_holds (plain : Admits P) (g : Registry) :
    ∀ (ms : List (String × Json)) (heap : Heap), (∀ t ∈ heap, t.Holds P) →
      (∀ f ∈ (ofMembers g ms heap).1, P f.2) ∧ ∀ t ∈ (ofMembers g ms heap).2, t.Holds P
  | [], heap, h => ⟨List.forall_mem_nil _, h⟩
  | (key, v) :: rest, heap, h => by
    obtain ⟨here, kept⟩ := ofJson_holds plain g v heap h
    obtain ⟨others, kept'⟩ := ofMembers_holds plain g rest _ kept
    unfold ofMembers
    exact ⟨List.forall_mem_cons.2 ⟨here, others⟩, kept'⟩

end

theorem enter_handles (plain : Admits P) (v : Json) : Handles P P (enter v) m := by
  intro h
  obtain ⟨here, kept⟩ := ofJson_holds plain m.registry v m.heap h.tables
  exact ⟨here, h.heap kept, fun _ => rfl⟩

/-- What holds of the value that a call gives back. -/
def Returns (P : Value → Prop) : Except Fault Value → Prop
  | .ok v => P v
  | .error _ => True

theorem readOnly_handles (plain : Admits P) (c : Capability) (json : Json) :
    Handles P (Returns P) (readOnly c json) m := by
  unfold readOnly
  split
  · exact .pure trivial
  · dsimp only
    split
    · exact .bind (note_handles _) fun _ => .then_pure (enter_handles plain _) fun _ there => there
    · exact .then_pure (enter_handles plain _) fun _ there => there

theorem declareIn_handles (plain : Admits P) (c : Capability) (r : ContextRef) (json : Json) :
    Handles P (Returns P) (declareIn c r json) m := by
  refine .looking (fun _ => rfl) fun _ => ?_
  split
  · exact .pure trivial
  · exact .bind (setContext_handles r _) fun _ =>
      .then_pure (enter_handles plain _) fun _ there => there

theorem runCapability_handles (plain : Admits P) (c : Capability) (context : Option ContextRef)
    (arg : Value) : Handles P (Returns P) (runCapability c context arg) m := by
  unfold runCapability
  split
  · refine .bind (leave_handles c.location _) fun _ => ?_
    split
    · exact .pure trivial
    · exact readOnly_handles plain c _
    · exact declareIn_handles plain c _ _
  · exact .pure trivial

end

/-! ## States to go on with -/

namespace State
variable {stack : Stack}

theorem holds_give {vs : List Value} (there : ∀ v ∈ vs, P v) (waits : stack.Holds P) :
    (give vs stack).Holds P := ⟨there, waits⟩

theorem holds_give_one {v : Value} (there : P v) (waits : stack.Holds P) :
    (give [v] stack).Holds P := ⟨List.forall_mem_singleton.2 there, waits⟩

theorem holds_raise {v : Value} (there : P v) (waits : stack.Holds P) :
    (raise v stack).Holds P := ⟨there, waits⟩

theorem holds_start (site : Site) {action : Action} (operands : List Expr)
    (taken : action.Holds P) (waits : stack.Holds P) :
    (start site action operands stack).Holds P := ⟨⟨taken, List.forall_mem_nil _⟩, waits⟩

theorem holds_refuseAt (level : Nat) (message : ByteArray) (waits : stack.Holds P) :
    (refuseAt level message stack).Holds P := ⟨trivial, waits⟩

theorem holds_refuse (message : String) (waits : stack.Holds P) :
    (refuse message stack).Holds P := ⟨trivial, waits⟩

theorem holds_enter (depth : Depth) (runs : Nat) {f : Value}
    {args : List Value} (there : P f) (given : ∀ v ∈ args, P v) (waits : stack.Holds P) :
    (enter depth runs f args stack).Holds P := by
  unfold enter
  split
  · exact ⟨⟨there, given⟩, waits⟩
  · exact holds_refuse _ waits

theorem holds_answered (depth : Depth) (runs : Nat) {a : Answer} {top : Frame}
    (answer : a.Holds P) (above : top.Holds P) (waits : stack.Holds P) :
    (answered depth runs a top stack).Holds P := by
  cases a with
  | value v => exact holds_give_one answer waits
  | handler h args =>
    exact holds_enter depth runs answer.1 answer.2 (List.forall_mem_cons.2 ⟨above, waits⟩)
  | refusal message => exact holds_refuseAt 1 message waits

end State

theorem Stack.Holds.push {f : Frame} {stack : Stack} (waits : stack.Holds P) (above : f.Holds P) :
    Stack.Holds P (f :: stack) := List.forall_mem_cons.2 ⟨above, waits⟩

section
variable {m : Machine} {stack : Stack}

theorem first_holds (plain : Admits P) {vs : List Value} (there : ∀ v ∈ vs, P v) :
    P (first vs) := by
  cases vs with
  | nil => exact plain .nil rfl
  | cons v vs => exact there v List.mem_cons_self

theorem tail_holds {vs : List Value} (there : ∀ v ∈ vs, P v) : ∀ v ∈ vs.tail, P v :=
  fun v mem => there v (List.mem_of_mem_tail mem)

theorem raiseFault_handles {f : Fault} (made : P (.fault m.faults f)) (waits : stack.Holds P) :
    Handles P (State.Holds P) (raiseFault f stack) m :=
  .then_pure (newFault_handles made) fun _ there => State.holds_raise there waits

/-- An error object that tells of no refused declaration. -/
theorem raiseText_handles (plain : Admits P) (message : String) (waits : stack.Holds P) :
    Handles P (State.Holds P) (raiseFault (.text message) stack) m :=
  raiseFault_handles (plain _ rfl) waits

/-! ## The functions of the language -/

theorem refuseArgument_holds (index : Nat) (function : String)
    (why : ByteArray) (waits : stack.Holds P) : (refuseArgument index function why stack).Holds P :=
  State.holds_refuseAt 1 _ waits

theorem raiseAt_holds (level : Nat) {v : Value} (there : P v)
    (waits : stack.Holds P) : (raiseAt level v stack).Holds P := by
  unfold raiseAt
  split
  · exact ⟨trivial, waits⟩
  · exact State.holds_raise there waits

theorem runError_holds (plain : Admits P) {args : List Value} (given : ∀ v ∈ args, P v)
    (waits : stack.Holds P) : (runError m args stack).Holds P := by
  unfold runError
  split
  · exact raiseAt_holds 1 (first_holds plain given) waits
  · split
    · exact raiseAt_holds _ (first_holds plain given) waits
    · exact refuseArgument_holds _ _ _ waits
    · exact refuseArgument_holds _ _ _ waits

theorem runAssert_holds (plain : Admits P) {args : List Value} (given : ∀ v ∈ args, P v)
    (waits : stack.Holds P) : (runAssert args stack).Holds P := by
  unfold runAssert
  split
  · exact refuseArgument_holds _ _ _ waits
  · next v rest =>
    split
    · exact State.holds_give given waits
    · refine raiseAt_holds 1 ?_ waits
      cases rest with
      | nil => exact plain _ rfl
      | cons message rest => exact given message (by simp)

theorem takeText_holds (plain : Admits P) (vs : List Value) (waits : stack.Holds P) :
    (takeText vs stack).Holds P := by
  unfold takeText
  split
  · exact State.holds_give_one (plain _ rfl) waits
  · exact State.holds_refuse _ waits

theorem print_handles (plain : Admits P) (depth : Depth) (texts : List String)
    {rest : List Value} (left : ∀ v ∈ rest, P v) (waits : stack.Holds P) :
    Handles P (State.Holds P) (print depth texts rest stack) m := by
  induction rest generalizing texts with
  | nil =>
    exact .then_pure (note_handles _) fun _ _ => State.holds_give (List.forall_mem_nil _) waits
  | cons v rest ih =>
    obtain ⟨here, others⟩ := List.forall_mem_cons.1 left
    refine .looking (fun _ => rfl) fun h => ?_
    have printed := h.printed plain here
    cases answer : m.printed v with
    | handler handler args =>
      rw [answer] at printed
      have line : Stack.Holds P (.printing depth texts rest :: stack) := waits.push others
      have host : Stack.Holds P (.host depth :: .printing depth texts rest :: stack) :=
        line.push trivial
      exact .pure (State.holds_enter depth 2 printed.1 printed.2 (host.push trivial))
    | refusal message => exact .pure (State.holds_refuseAt 1 message waits)
    | value v =>
      dsimp only
      cases Text.ofUtf8 (v.bytes?.getD .empty) with
      | ok s => exact ih (s :: texts) others
      | error e => exact raiseText_handles plain _ waits

theorem printMore_handles (plain : Admits P) (depth : Depth) (texts : List String)
    {rest : List Value} (left : ∀ v ∈ rest, P v) (vs : List Value) (waits : stack.Holds P) :
    Handles P (State.Holds P) (printMore depth texts rest vs stack) m := by
  unfold printMore
  split
  · exact print_handles plain depth _ left waits
  · exact raiseText_handles plain _ waits

theorem changeMetatable_handles (plain : Admits P) (r : TableRef) (metatable : Option TableRef)
    (waits : stack.Holds P) :
    Handles P (State.Holds P) (changeMetatable r metatable stack) m := by
  refine .looking (fun _ => rfl) fun _ => ?_
  split
  · exact .pure (State.holds_refuse _ waits)
  · exact .then_pure (setMetatable_handles r metatable) fun _ _ =>
      State.holds_give_one (plain _ rfl) waits

theorem refuseType_holds (args : List Value) (index : Nat)
    (function expected : String) (waits : stack.Holds P) :
    (refuseType m args index function expected stack).Holds P :=
  refuseArgument_holds _ _ _ waits

theorem runSetMetatable_handles (plain : Admits P) (args : List Value) (waits : stack.Holds P) :
    Handles P (State.Holds P) (runSetMetatable args stack) m := by
  unfold runSetMetatable
  split
  · exact changeMetatable_handles plain _ none waits
  · exact changeMetatable_handles plain _ (some _) waits
  · exact .looking (fun _ => rfl) fun _ => .pure (refuseType_holds _ _ _ _ waits)
  · exact .looking (fun _ => rfl) fun _ => .pure (refuseType_holds _ _ _ _ waits)

theorem runCreateThread_handles (plain : Admits P) (args : List Value) (waits : stack.Holds P) :
    Handles P (State.Holds P) (runCreateThread args stack) m := by
  unfold runCreateThread
  split
  · exact .then_pure (newThread_handles (plain _ rfl)) fun _ _ =>
      State.holds_give_one (plain _ rfl) waits
  · exact .looking (fun _ => rfl) fun _ => .pure (refuseType_holds _ _ _ _ waits)

theorem runWrapThread_handles (plain : Admits P) (args : List Value) (waits : stack.Holds P) :
    Handles P (State.Holds P) (runWrapThread args stack) m := by
  unfold runWrapThread
  split
  · exact .bind (newThread_handles (plain _ rfl)) fun _ =>
      .then_pure (newFunction_handles plain _) fun _ there => State.holds_give_one there waits
  · exact .looking (fun _ => rfl) fun _ => .pure (refuseType_holds _ _ _ _ waits)

theorem resumeThread_handles (depth : Depth) (r : ThreadRef) (placed : Bool)
    {args : List Value} (given : ∀ v ∈ args, P v) (waits : stack.Holds P) :
    Handles P (State.Holds P) (resumeThread depth r placed args stack) m := by
  refine .looking (fun _ => rfl) fun h => ?_
  have holds := h.thread r
  cases thread : m.thread r with
  | running => exact .pure (State.holds_refuse _ waits)
  | dead => exact .pure (State.holds_refuse _ waits)
  | fresh body =>
    rw [thread] at holds
    exact .then_pure (setThread_handles r trivial) fun _ _ =>
      State.holds_enter depth 1 holds given (waits.push trivial)
  | suspended own =>
    rw [thread] at holds
    have whole : Stack.Holds P (own.frames ++ .thread r placed :: stack) :=
      List.forall_mem_append.2 ⟨holds, waits.push trivial⟩
    dsimp only
    split
    · exact .pure (State.holds_refuse _ waits)
    · exact .then_pure (setThread_handles r trivial) fun _ _ => State.holds_give given whole

theorem runBuiltin_handles (plain : Admits P) (depth : Depth) {args : List Value}
    (given : ∀ v ∈ args, P v) (waits : stack.Holds P) (b : Builtin) :
    Handles P (State.Holds P) (runBuiltin depth args stack b) m := by
  cases b with
  | print => exact print_handles plain depth [] given waits
  | type =>
    cases args with
    | nil => exact .pure (refuseArgument_holds _ _ _ waits)
    | cons v rest => exact .pure (State.holds_give_one (plain _ rfl) waits)
  | tostring =>
    cases args with
    | nil => exact .pure (refuseArgument_holds _ _ _ waits)
    | cons v rest =>
      exact .looking (fun _ => rfl) fun h => .pure (State.holds_answered depth 1
        (h.textOf plain (given v List.mem_cons_self)) trivial waits)
  | pcall =>
    cases args with
    | nil => exact .pure (State.holds_raise (plain _ rfl) waits)
    | cons f rest =>
      obtain ⟨there, given⟩ := List.forall_mem_cons.1 given
      exact .pure (State.holds_enter depth 1 there given (waits.push trivial))
  | error => exact .looking (fun _ => rfl) fun _ => .pure (runError_holds plain given waits)
  | assert => exact .pure (runAssert_holds plain given waits)
  | setmetatable => exact runSetMetatable_handles plain args waits
  | getmetatable =>
    cases args with
    | nil => exact .pure (refuseArgument_holds _ _ _ waits)
    | cons v rest =>
      exact .looking (fun _ => rfl) fun h => .pure
        (State.holds_give_one (h.shownBehind plain v) waits)
  | createThread => exact runCreateThread_handles plain args waits
  | wrapThread => exact runWrapThread_handles plain args waits

/-! ## Loading -/

theorem askField_handles (plain : Admits P) (depth : Depth) {v : Value} (there : P v)
    (name : String) (waits : stack.Holds P) :
    Handles P (State.Holds P) (askField depth v name stack) m := by
  refine .looking (fun _ => ?_) fun h => .pure ?_
  · unfold Machine.look
    rw [Machine.lookWithin_preceded]
  · exact State.holds_answered depth 2 (h.look plain there (plain _ rfl)) trivial
      (waits.push trivial)

theorem storeField_handles (plain : Admits P) (depth : Depth) {subject v : Value}
    (into : P subject) (name : String) (there : P v) (waits : stack.Holds P) :
    Handles P (State.Holds P) (storeField depth subject name v stack) m := by
  refine .looking (fun _ => ?_) fun h => ?_
  · unfold Machine.aim
    rw [Machine.aimWithin_preceded]
  · have aimed := h.aim plain into (plain (.text name) rfl)
    have host : Stack.Holds P (.host depth :: stack) := waits.push trivial
    cases answer : m.aim subject (.text name) with
    | value target =>
      cases target with
      | table r =>
        exact .then_pure (setRaw_handles r (plain _ rfl) there) fun _ _ =>
          State.holds_give (List.forall_mem_nil _) waits
      | _ => exact .pure (State.holds_give (List.forall_mem_nil _) waits)
    | handler handler args =>
      rw [answer] at aimed
      refine .pure (State.holds_enter depth 2 aimed.1 ?_ host)
      exact List.forall_mem_append.2 ⟨aimed.2, List.forall_mem_singleton.2 there⟩
    | refusal message => exact .pure (State.holds_refuseAt 1 message host)

theorem moduleName_text {v : Value} {f : Fault} (refused : moduleName v = .error f) :
    ∃ message, f = .text message := by
  unfold moduleName at refused
  split at refused
  · split at refused
    · cases refused
    · cases refused
      exact ⟨_, rfl⟩
  · cases refused
    exact ⟨_, rfl⟩

theorem startLoading_handles (plain : Admits P) (scripts : MountTable Source) (depth : Depth)
    (arg : Value) (waits : stack.Holds P) :
    Handles P (State.Holds P) (startLoading scripts depth arg stack) m := by
  unfold startLoading
  split
  · next refused =>
    obtain ⟨message, rfl⟩ := moduleName_text refused
    exact raiseText_handles plain message waits
  · refine .bind (global_handles plain "package") fun there => ?_
    split
    · exact askField_handles plain depth (plain _ rfl) "loaded" (waits.push trivial)
    · exact raiseText_handles plain _ waits

theorem runModule_handles (plain : Admits P) (request : Request) {modules : Value}
    (into : P modules) (waits : stack.Holds P) :
    Handles P (State.Holds P) (runModule request modules stack) m := by
  unfold runModule
  split
  · exact raiseText_handles plain _ waits
  · exact raiseText_handles plain _ waits
  · next path block _ =>
    have loading : Stack.Holds P (.loading request (.running modules) :: stack) :=
      waits.push into
    have below : Stack.Holds P (.host request.depth :: .loading request (.running modules) :: stack) :=
      loading.push trivial
    dsimp only
    split
    · exact .pure ⟨trivial, below.push trivial⟩
    · exact .pure (State.holds_refuse _ below)

theorem loading_given_handles (plain : Admits P) (request : Request) {vs : List Value}
    (there : ∀ v ∈ vs, P v) (waits : stack.Holds P) {stage : Loading} (kept : stage.Holds P) :
    Handles P (State.Holds P) (stage.given request vs stack) m := by
  have here := first_holds plain there
  cases stage with
  | loaded =>
    rw [Loading.given]
    split
    · next r _ =>
      have cached : Stack.Holds P (.loading request (.cached (.table r)) :: stack) :=
        waits.push (plain (.table r) rfl)
      exact askField_handles plain request.depth (plain _ rfl) request.name cached
    · exact raiseText_handles plain _ waits
  | cached modules =>
    rw [Loading.given]
    split
    · exact runModule_handles plain request kept waits
    · exact .pure (State.holds_give_one here waits)
  | running modules =>
    have stores : ∀ v, P v → Handles P (State.Holds P) (storeField request.depth modules
        request.name v (.loading request (.storing v) :: stack)) m := by
      intro v there
      have storing : Stack.Holds P (.loading request (.storing v) :: stack) := waits.push there
      exact storeField_handles plain request.depth kept request.name there storing
    rw [Loading.given]
    split
    · exact stores _ (plain _ rfl)
    · exact stores _ here
  | storing v => exact .pure (State.holds_give_one kept waits)

/-! ## Foreign code -/

/-- What holds of the values in an order. -/
def Order.Holds (P : Value → Prop) : Order → Prop
  | .give vs | .yield vs | .function _ vs => ∀ v ∈ vs, P v
  | .raise v | .text v | .inspect v | .close v => P v
  | .call f args | .attempt f args | .resume f args => P f ∧ ∀ v ∈ args, P v
  | .put subject key value => P subject ∧ P key ∧ P value
  | .refuse _ _ | .table | .present => True

section
variable {seen : List (List Value)}

theorem passable_holds (plain : Admits P) (known : ∀ vs ∈ seen, ∀ v ∈ vs, P v) (v : Value) :
    P (passable seen v) := by
  unfold passable
  split
  · next there =>
    rcases Bool.or_eq_true_iff.1 there with made | there
    · exact plain v (by cases v <;> first | rfl | cases made)
    · obtain ⟨vs, among, mem⟩ := List.any_eq_true.1 there
      exact known vs among v (List.contains_iff_mem.1 mem)
  · exact plain _ rfl

/-- Foreign code orders nothing with values that it has not seen. -/
theorem within_holds (plain : Admits P) (known : ∀ vs ∈ seen, ∀ v ∈ vs, P v) (o : Order) :
    (o.within seen).Holds P := by
  have one := passable_holds plain known
  have each : ∀ vs : List Value, ∀ v ∈ vs.map (passable seen), P v :=
    fun vs => List.forall_mem_map.2 fun v _ => one v
  cases o with
  | put subject key value => exact ⟨one subject, one key, one value⟩
  | call f args => exact ⟨one f, each args⟩
  | attempt f args => exact ⟨one f, each args⟩
  | resume f args => exact ⟨one f, each args⟩
  | give vs => exact each vs
  | yield vs => exact each vs
  | function code vs => exact each vs
  | raise v => exact one v
  | text v => exact one v
  | inspect v => exact one v
  | close v => exact one v
  | _ => trivial

theorem foreignFunction_handles (plain : Admits P) (code : Nat) {captured : List Value}
    (there : ∀ v ∈ captured, P v) : Handles P P (foreignFunction code captured) m := by
  cases captured with
  | nil =>
    refine .looking (fun _ => rfl) fun _ => ?_
    split
    · exact .pure (plain _ rfl)
    · exact newFunction_handles plain _
  | cons v vs =>
    exact .bind (.mapM (fun v mem _ => newCell_handles (there v mem)) m) fun _ =>
      newFunction_handles plain _

theorem leaveThread_handles (depth : Depth) (code : Nat) {vs : List Value}
    (known : ∀ vs ∈ seen, ∀ v ∈ vs, P v) (given : ∀ v ∈ vs, P v) (waits : stack.Holds P) :
    Handles P (State.Holds P) (leaveThread depth code seen vs stack) m := by
  refine .looking (fun _ => rfl) fun _ => ?_
  split
  · exact .pure (State.holds_refuse _ waits)
  · next parts =>
    obtain ⟨placed, rfl⟩ := parted?_eq parts
    obtain ⟨own, below⟩ := List.forall_mem_append.1 waits
    exact .then_pure (setThread_handles _ (List.forall_mem_cons.2 ⟨known, own⟩)) fun _ _ =>
      State.holds_give given (List.forall_mem_cons.1 below).2

variable {here : Stack}

theorem closeThread_handles (r : ThreadRef) (waits : here.Holds P) (below : stack.Holds P) :
    Handles P (State.Holds P) (closeThread r here stack) m := by
  refine .looking (fun _ => rfl) fun _ => ?_
  split
  · exact .pure (State.holds_refuse _ below)
  · exact .then_pure (setThread_handles r trivial) fun _ _ =>
      State.holds_give (List.forall_mem_nil _) waits

theorem putRaw_handles (plain : Admits P) (r : TableRef) {key value : Value} (under : P key)
    (there : P value) (waits : here.Holds P) (below : stack.Holds P) :
    Handles P (State.Holds P) (putRaw r key value here stack) m := by
  unfold putRaw
  split
  · exact .pure (State.holds_refuse _ below)
  · next found =>
    exact .then_pure (setRaw_handles r (holds_key plain under found) there) fun _ _ =>
      State.holds_give (List.forall_mem_nil _) waits

theorem obey_handles (plain : Admits P) (depth : Depth) (code : Nat)
    (known : ∀ vs ∈ seen, ∀ v ∈ vs, P v) (waits : stack.Holds P) {o : Order} (order : o.Holds P) :
    Handles P (State.Holds P) (obey depth code seen stack o) m := by
  have here : Stack.Holds P (.foreign depth code seen :: stack) := waits.push known
  have nothing : Handles P (State.Holds P) (pure (.give [] (.foreign depth code seen :: stack))) m :=
    .pure (State.holds_give (List.forall_mem_nil _) here)
  cases o with
  | give vs => exact .pure (State.holds_give order waits)
  | raise v => exact .pure (State.holds_raise order waits)
  | refuse level message => exact .pure ⟨trivial, waits⟩
  | call f args =>
    exact .looking (fun _ => rfl) fun _ => .pure (State.holds_enter depth _ order.1 order.2 here)
  | attempt f args =>
    exact .pure (State.holds_enter depth 1 order.1 order.2 (here.push trivial))
  | text v =>
    exact .looking (fun _ => rfl) fun h => .pure
      (State.holds_answered depth 1 (h.textOf plain order) trivial here)
  | inspect v =>
    exact .looking (fun _ => rfl) fun h => .pure
      (State.holds_give (h.contents plain stack v) here)
  | table =>
    exact .then_pure (newTable_handles Table.Holds.empty) fun _ _ =>
      State.holds_give_one (plain _ rfl) here
  | put subject key value =>
    cases subject with
    | table r => exact putRaw_handles plain r order.2.1 order.2.2 here waits
    | _ => exact nothing
  | function code captured =>
    exact .then_pure (foreignFunction_handles plain code order) fun _ there =>
      State.holds_give_one there here
  | resume thread args =>
    cases thread with
    | thread r => exact resumeThread_handles depth r false order.2 (here.push trivial)
    | _ => exact nothing
  | yield vs => exact leaveThread_handles depth code known order waits
  | close thread =>
    cases thread with
    | thread r => exact closeThread_handles r here waits
    | _ => exact nothing
  | present =>
    refine .looking (fun _ => rfl) fun _ => .pure (State.holds_give ?_ here)
    refine List.forall_mem_cons.2 ⟨?_, List.forall_mem_singleton.2 (plain _ rfl)⟩
    split <;> exact plain _ rfl

theorem goOn_handles (plain : Admits P) (depth : Depth) (code : Nat)
    (known : ∀ vs ∈ seen, ∀ v ∈ vs, P v) (waits : stack.Holds P) :
    Handles P (State.Holds P) (goOn depth code seen stack) m :=
  .looking (fun _ => rfl) fun _ =>
    obey_handles plain depth code known waits (within_holds plain known _)

end
end

/-! ## Tables of functions -/

section
variable {m : Machine}

theorem newFields_handles (plain : Admits P) {fields : List (String × Value)}
    (each : ∀ f ∈ fields, P f.2) : Handles P P (newFields fields) m :=
  .then_pure (newTable_handles (Table.holds_ofFields plain each)) fun _ _ => plain _ rfl

/-- The loader is put in its place with a table of loaded modules. -/
theorem loader_handles (plain : Admits P) (scripts : MountTable Source) (library : TableRef) :
    Handles P (fun _ => True) (do
      let loaded ← newFields [(libraryName, .table library)]
      setGlobal "package" (← newFields [("loaded", loaded)])
      setGlobal "require" (← newFunction (.require scripts))) m := by
  refine .bind (newFields_handles plain (List.forall_mem_singleton.2 ?_)) fun loaded => ?_
  · exact plain _ rfl
  · refine .bind (newFields_handles plain (List.forall_mem_singleton.2 loaded)) fun package => ?_
    refine .bind (setGlobal_handles plain "package" package) fun _ => ?_
    exact .bind (newFunction_handles plain _) fun loader => setGlobal_handles plain "require" loader

theorem functionFields_handles (plain : Admits P) (fields : List (String × Callable)) :
    Handles P (fun fs => ∀ f ∈ fs, P f.2) (functionFields fields) m := by
  refine .mapM (fun field _ m => ?_) m
  exact .then_pure (newFunction_handles plain field.2) fun _ there => there

theorem functionTable_handles (plain : Admits P) (fields : List (String × Callable)) :
    Handles P P (functionTable fields) m :=
  .bind (functionFields_handles plain fields) fun each => newFields_handles plain each

theorem capabilityTable_handles (plain : Admits P) (context : Option ContextRef)
    {constants : List (String × Value)} (each : ∀ f ∈ constants, P f.2) :
    Handles P P (capabilityTable context constants) m := by
  refine .bind (functionTable_handles plain _) fun global => ?_
  refine .bind (functionTable_handles plain _) fun channel => ?_
  refine .bind (functionTable_handles plain _) fun override => ?_
  refine .bind (newFunction_handles plain _) fun category => newFields_handles plain ?_
  refine List.forall_mem_append.2 ⟨?_, each⟩
  simp only [List.forall_mem_cons]
  exact ⟨global, channel, override, category, List.forall_mem_nil _⟩

end
end GuildPlan.Script
