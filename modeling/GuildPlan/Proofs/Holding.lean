import GuildPlan.Proofs.KeyMap
import GuildPlan.Script.Step

/-
  The values in a machine and in the state of a script, and what holds of them. What is asked
  of a value is answered from these values and plain ones, and by no look at the log.
-/
namespace GuildPlan.Script

/-- What an error object tells that was raised for a refused declaration. -/
def Value.refusal? : Value → Option Invalid
  | .fault _ (.invalid e) => some e
  | _ => none

/-- A machine with further lines in its log, before all others. -/
def Machine.preceded (lines : Array LogLine) (m : Machine) : Machine :=
  { m with log := lines ++ m.log }

/-! ## The values in a machine and in a state -/

section
variable (P : Value → Prop)

def Table.Holds (t : Table) : Prop := ∀ e ∈ t.entries, P e.1 ∧ P e.2

def Answer.Holds : Answer → Prop
  | .value v => P v
  | .handler h args => P h ∧ ∀ v ∈ args, P v
  | .refusal _ => True

def Operand.Holds : Operand → Prop
  | .value v => P v
  | .variable _ => True

def Action.Holds : Action → Prop
  | .entry t _ _ => t.Holds P
  | _ => True

def Loading.Holds : Loading → Prop
  | .loaded => True
  | .cached modules | .running modules => P modules
  | .storing v => P v

def Frame.Holds : Frame → Prop
  | .operands _ action found _ => action.Holds P ∧ ∀ o ∈ found, o.Holds P
  | .printing _ _ vs => ∀ v ∈ vs, P v
  | .loading _ stage => stage.Holds P
  | .foreign _ _ seen => ∀ vs ∈ seen, ∀ v ∈ vs, P v
  | _ => True

/-- Something holds of all values that wait. -/
def Stack.Holds (stack : Stack) : Prop := ∀ f ∈ stack, Frame.Holds P f

def Thread.Holds : Thread → Prop
  | .fresh body => P body
  | .suspended own => Stack.Holds P own.frames
  | .running | .dead => True

structure Machine.Holds (m : Machine) : Prop where
  tables : ∀ t ∈ m.heap, t.Holds P
  cells : ∀ v ∈ m.cells, P v
  threads : ∀ t ∈ m.threads, t.Holds P

def Control.Holds : Control → Prop
  | .find _ action found _ => action.Holds P ∧ ∀ o ∈ found, o.Holds P
  | .call _ _ f args => P f ∧ ∀ v ∈ args, P v
  | .give vs | .leave vs => ∀ v ∈ vs, P v
  | .raise v => P v
  | .run _ _ | .evaluate _ _ | .next _ | .refuse _ _ _ => True

structure State.Holds (s : State) : Prop where
  control : s.control.Holds P
  stack : Stack.Holds P s.stack

end

/-- A property that only error objects of refused declarations can lack. -/
def Admits (P : Value → Prop) : Prop := ∀ v : Value, v.refusal? = none → P v

variable {P : Value → Prop}

theorem holds_key (plain : Admits P) {v key : Value} (there : P v) (found : v.key? = some key) :
    P key := by
  unfold Value.key? at found
  split at found
  · cases found
  · split at found
    · cases found
    · split at found <;> cases found <;> exact plain _ rfl
  · cases found
    exact there

/-! ## Tables -/

namespace Table
variable {t : Table}

theorem Holds.empty : (∅ : Table).Holds P := List.forall_mem_nil _

theorem Holds.get (plain : Admits P) (h : t.Holds P) (key : Value) : P (t.get key) := by
  unfold Table.get
  cases found : t.entries.lookup key with
  | none => exact plain .nil rfl
  | some v => exact (h (key, v) (mem_of_lookup found)).2

theorem Holds.find (plain : Admits P) (h : t.Holds P) (key : Value) : P (t.find key) := by
  unfold Table.find
  split
  · exact h.get plain _
  · exact plain .nil rfl

theorem Holds.set (h : t.Holds P) {key value : Value} (under : P key) (there : P value) :
    (t.set key value).Holds P := by
  unfold Table.set
  split
  · exact fun e mem => h e (List.mem_filter.1 mem).1
  · intro e mem
    rcases mem_putEntry mem with rfl | mem
    · exact ⟨under, there⟩
    · exact h e mem

theorem Holds.withEntry (h : t.Holds P) (count : Nat) {key value : Value} (under : P key)
    (there : P value) : (t.withEntry count key value).Holds P := by
  unfold Table.withEntry
  split
  · exact h
  · exact h.set under there

theorem Holds.rearranged (h : t.Holds P) {t' : Table} (same : t.Rearranged t') : t'.Holds P :=
  fun e mem => h e (same.entries.mem_iff.2 mem)

theorem holds_ofItems (plain : Admits P) {items : List Value} (each : ∀ v ∈ items, P v) :
    (ofItems items).Holds P := by
  have indexed : ∀ n, ∀ e ∈ Table.indexed n items, P e.1 ∧ P e.2 := by
    induction items with
    | nil => exact fun n => List.forall_mem_nil _
    | cons v vs ih =>
      obtain ⟨first, others⟩ := List.forall_mem_cons.1 each
      exact fun n => List.forall_mem_cons.2 ⟨⟨plain _ rfl, first⟩, ih others (n + 1)⟩
  exact fun e mem => indexed 1 e (List.mem_filter.1 mem).1

theorem holds_ofFields (plain : Admits P) {fields : List (String × Value)}
    (each : ∀ f ∈ fields, P f.2) : (ofFields fields).Holds P := by
  unfold ofFields
  have start : (∅ : Table).Holds P := .empty
  generalize (∅ : Table) = t at start ⊢
  induction fields generalizing t with
  | nil => exact start
  | cons f fields ih =>
    obtain ⟨first, others⟩ := List.forall_mem_cons.1 each
    exact ih others _ (start.set (plain (.text f.1) rfl) first)

end Table

/-! ## Machines -/

namespace Machine.Holds
variable {m : Machine}

theorem table (h : m.Holds P) (r : TableRef) : (m.table r).Holds P := by
  unfold Machine.table Heap.table
  rw [Array.getD_eq_getD_getElem?]
  cases found : m.heap[r.index]? with
  | none => exact .empty
  | some t => exact h.tables t (Array.mem_of_getElem? found)

theorem cell (plain : Admits P) (h : m.Holds P) (r : CellRef) : P (m.cell r) := by
  unfold Machine.cell
  rw [Array.getD_eq_getD_getElem?]
  cases found : m.cells[r.index]? with
  | none => exact plain .nil rfl
  | some v => exact h.cells v (Array.mem_of_getElem? found)

theorem thread (h : m.Holds P) (r : ThreadRef) : (m.thread r).Holds P := by
  unfold Machine.thread
  rw [Array.getD_eq_getD_getElem?]
  cases found : m.threads[r.index]? with
  | none => trivial
  | some t => exact h.threads t (Array.mem_of_getElem? found)

theorem operand (plain : Admits P) (h : m.Holds P) {o : Operand} (holds : o.Holds P) :
    P (m.operand o) := by
  rcases o with v | r
  · exact holds
  · exact h.cell plain r

theorem heap {heap : Heap} (h : m.Holds P) (each : ∀ t ∈ heap, t.Holds P) :
    Machine.Holds P { m with heap } := ⟨each, h.cells, h.threads⟩

theorem preceded (h : m.Holds P) (lines : Array LogLine) : (m.preceded lines).Holds P :=
  ⟨h.tables, h.cells, h.threads⟩

theorem update (h : m.Holds P) (r : TableRef) {f : Table → Table}
    (kept : ∀ t : Table, t.Holds P → (f t).Holds P) :
    Machine.Holds P { m with heap := m.heap.update r f } := by
  refine h.heap fun t mem => ?_
  obtain ⟨i, inside, rfl⟩ := Array.mem_iff_getElem.1 mem
  unfold Heap.update at inside ⊢
  rw [Array.getElem_modify]
  split
  · exact kept _ (h.tables _ (Array.getElem_mem _))
  · exact h.tables _ (Array.getElem_mem _)

/-- Tables that are arranged anew hold what they held. -/
theorem stirred (h : m.Holds P) : m.stirred.Holds P := by
  have arranged : ∀ (steps : List (TableRef × Arrangement)) (m : Machine), m.Holds P →
      ∀ t ∈ m.heap.arranged steps, t.Holds P := by
    intro steps
    induction steps with
    | nil => exact fun m h => h.tables
    | cons step steps ih =>
      exact fun m h => ih { m with heap := m.heap.update step.1 step.2.arrange }
        (h.update step.1 fun t there => there.rearranged (step.2.rearranged t))
  exact ⟨arranged _ m h, h.cells, h.threads⟩

end Machine.Holds

/-! ## What is asked of values -/

namespace Machine
variable {m : Machine}

theorem Holds.own (plain : Admits P) (h : m.Holds P) (subject key : Value) :
    P (m.own subject key) := by
  cases subject with
  | table r => exact (h.table r).find plain key
  | _ => exact plain .nil rfl

theorem Holds.handler (plain : Admits P) (h : m.Holds P) (name : String) (v : Value) :
    P (m.handler name v) := by
  unfold Machine.handler
  split
  · split
    · exact (h.table _).get plain _
    · exact plain .nil rfl
  · exact (h.table _).get plain _
  · exact plain .nil rfl

theorem Holds.handlerOfEither (plain : Admits P) (h : m.Holds P) (name : String) (a b : Value) :
    P (m.handlerOfEither name a b) := by
  unfold Machine.handlerOfEither
  split
  · exact h.handler plain name b
  · exact h.handler plain name a

theorem Holds.look (plain : Admits P) (h : m.Holds P) {subject key : Value} (there : P subject)
    (named : P key) : (m.look subject key).Holds P := by
  unfold Machine.look
  generalize chainLimit = fuel
  induction fuel generalizing subject with
  | zero =>
    unfold lookWithin
    split
    · trivial
    · exact h.own plain subject key
  | succ fuel ih =>
    unfold lookWithin
    split
    · dsimp only
      split
      · exact plain .nil rfl
      · trivial
      · exact ⟨plain _ rfl, by simp [there, named]⟩
      · exact ih (h.handler plain "__index" _)
    · exact h.own plain subject key

theorem Holds.aim (plain : Admits P) (h : m.Holds P) {subject key : Value} (there : P subject)
    (named : P key) : (m.aim subject key).Holds P := by
  unfold Machine.aim
  generalize chainLimit = fuel
  induction fuel generalizing subject with
  | zero =>
    unfold aimWithin
    split
    · exact there
    · trivial
  | succ fuel ih =>
    unfold aimWithin
    split
    · exact there
    · dsimp only
      split
      · exact plain _ rfl
      · trivial
      · exact ⟨plain _ rfl, by simp [there, named]⟩
      · exact ih (h.handler plain "__newindex" _)

theorem Holds.compare (plain : Admits P) (h : m.Holds P) (a b : Value) :
    (m.compare a b).Holds P := by
  unfold Machine.compare
  split
  · split
    · exact plain _ rfl
    · split
      · exact plain _ rfl
      · refine ⟨h.handlerOfEither plain "__eq" _ _, ?_⟩
        exact List.forall_mem_cons.2 ⟨plain _ rfl, List.forall_mem_singleton.2 (plain _ rfl)⟩
  · exact plain _ rfl

theorem Holds.join (plain : Admits P) (h : m.Holds P) {a b : Value} (left : P a) (right : P b) :
    (m.join a b).Holds P := by
  unfold Machine.join
  split
  · exact plain _ rfl
  · split
    · trivial
    · exact ⟨h.handlerOfEither plain "__concat" a b, by simp [left, right]⟩

theorem Holds.textOf (plain : Admits P) (h : m.Holds P) {v : Value} (there : P v) :
    (m.textOf v).Holds P := by
  unfold Machine.textOf
  split
  · exact plain _ rfl
  · exact ⟨h.handler plain "__tostring" v, List.forall_mem_singleton.2 there⟩

theorem Holds.printed (plain : Admits P) (h : m.Holds P) {v : Value} (there : P v) :
    (m.printed v).Holds P := by
  unfold Machine.printed
  split
  · exact plain _ rfl
  · exact plain _ rfl
  · exact plain _ rfl
  · exact h.textOf plain there

theorem Holds.behind (plain : Admits P) (v : Value) : P (m.behind v) := by
  unfold Machine.behind
  split
  · split <;> exact plain _ rfl
  · exact plain _ rfl
  · exact plain _ rfl

theorem Holds.shownBehind (plain : Admits P) (h : m.Holds P) (v : Value) :
    P (m.shownBehind v) := by
  unfold Machine.shownBehind
  split
  · exact plain _ rfl
  · split
    · exact Holds.behind plain v
    · exact h.handler plain "__metatable" v

theorem Holds.contents (plain : Admits P) (h : m.Holds P) (stack : Stack) (v : Value) :
    ∀ w ∈ m.contents stack v, P w := by
  cases v with
  | table r =>
    refine List.forall_mem_cons.2 ⟨plain _ rfl, List.forall_mem_cons.2 ⟨Holds.behind plain _, ?_⟩⟩
    intro w mem
    obtain ⟨e, there, mem⟩ := List.mem_flatMap.1 mem
    obtain ⟨key, value⟩ := h.table r e there
    rcases List.mem_cons.1 mem with rfl | mem
    · exact key
    · exact List.mem_singleton.1 mem ▸ value
  | str bytes => exact List.forall_mem_singleton.2 (Holds.behind plain _)
  | thread r => exact List.forall_mem_singleton.2 (plain _ rfl)
  | _ => exact List.forall_mem_nil _

/-- The arguments of the function that a call comes to. -/
theorem Holds.callee (plain : Admits P) (h : m.Holds P) {f : Value} {args : List Value}
    (there : P f) (given : ∀ v ∈ args, P v) {r : FunctionRef} {args' : List Value}
    (called : m.callee f args = .function r args') : ∀ v ∈ args', P v := by
  unfold Machine.callee at called
  generalize argumentLimit = fuel at called
  induction fuel generalizing f args with
  | zero =>
    cases f with
    | function r' =>
      cases called
      exact given
    | _ => cases called
  | succ fuel ih =>
    by_cases function : ∃ r', f = .function r'
    · obtain ⟨r', rfl⟩ := function
      cases called
      exact given
    · rw [calleeWithin] at called
      · split at called
        · cases called
        · exact ih (h.handler plain "__call" f) (List.forall_mem_cons.2 ⟨there, given⟩) called
      · exact fun r' same => function ⟨r', same⟩

/-! ## The log is not looked at -/

variable (lines : Array LogLine)

theorem lookWithin_preceded (key : Value) (fuel : Nat) (subject : Value) :
    (m.preceded lines).lookWithin key fuel subject = m.lookWithin key fuel subject := by
  induction fuel generalizing subject with
  | zero =>
    unfold lookWithin
    rfl
  | succ fuel ih =>
    unfold lookWithin
    simp only [ih]
    rfl

theorem aimWithin_preceded (key : Value) (fuel : Nat) (subject : Value) :
    (m.preceded lines).aimWithin key fuel subject = m.aimWithin key fuel subject := by
  induction fuel generalizing subject with
  | zero =>
    unfold aimWithin
    rfl
  | succ fuel ih =>
    unfold aimWithin
    simp only [ih]
    rfl

theorem calleeWithin_preceded (fuel : Nat) (v : Value) (args : List Value) :
    (m.preceded lines).calleeWithin fuel v args = m.calleeWithin fuel v args := by
  induction fuel generalizing v args with
  | zero => cases v <;> rfl
  | succ fuel ih =>
    by_cases function : ∃ r', v = .function r'
    · obtain ⟨r', rfl⟩ := function
      rfl
    · have other : ∀ r', v = .function r' → False := fun r' same => function ⟨r', same⟩
      rw [calleeWithin, calleeWithin]
      · simp only [ih]
        rfl
      all_goals exact other

end Machine

end GuildPlan.Script
