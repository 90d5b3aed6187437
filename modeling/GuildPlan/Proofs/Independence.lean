import GuildPlan.Proofs.Booting
import GuildPlan.Proofs.Predicates
import GuildPlan.Proofs.Stepping

/-
  Compilations one after another. A compilation resets its machine before it runs anything, and
  a reset leaves nothing behind but the log, which neither the host nor a script ever looks at.
  So nothing that was compiled before, and no failure of it, makes a difference to what is
  compiled next.
-/
namespace GuildPlan.Script

variable {α β : Type}

/-! ## What the host does -/

/-- Something the host does without a look at the log. -/
def Oblivious (x : Hosted α) : Prop :=
  ∀ m lines, x (Machine.preceded lines m) = match x m with
    | .ok a t => .ok a (t.preceded lines)
    | .error e t => .error e (t.preceded lines)

namespace Oblivious

theorem pure (a : α) : Oblivious (Pure.pure a) := fun _ _ => rfl

theorem throw (e : Failure) : Oblivious (MonadExcept.throw e : Hosted α) := fun _ _ => rfl

theorem hosted {Q : α → Prop} {x : Run α} (h : ∀ m, Handles (fun _ => True) Q x m) :
    Oblivious (hosted x) := by
  intro m lines
  rw [hosted_ok, hosted_ok, (h m m.holds_true).2.2]

theorem bind {x : Hosted α} {f : α → Hosted β} (first : Oblivious x) (rest : ∀ a, Oblivious (f a)) :
    Oblivious (x >>= f) := by
  intro m lines
  show EStateM.bind x f (m.preceded lines) = match EStateM.bind x f m with
    | .ok a t => .ok a (t.preceded lines)
    | .error e t => .error e (t.preceded lines)
  unfold EStateM.bind
  rw [first]
  cases x m with
  | ok a t => exact rest a t lines
  | error e t => rfl

/-- Nothing comes after a failure. -/
theorem throw_bind {e : Failure} {f : α → Hosted β} :
    Oblivious (MonadExcept.throw e >>= f) := fun _ _ => rfl

/-- What is done after a look at the machine, but not at its log. -/
theorem looking {f : Machine → Hosted α} (blind : ∀ m lines, f (Machine.preceded lines m) = f m)
    (rest : ∀ m, Oblivious (f m)) : Oblivious (MonadState.get >>= f) := by
  intro m lines
  show f (m.preceded lines) (m.preceded lines) = match f m m with
    | .ok a t => .ok a (t.preceded lines)
    | .error e t => .error e (t.preceded lines)
  rw [blind]
  exact rest m m lines

end Oblivious

/-- Every property holds of what has none to lack. -/
theorem admits_true : Admits fun _ => True := fun _ _ => trivial

theorem run_oblivious (s : State) : Oblivious (hosted (run s)) := by
  intro m lines
  rw [hosted_ok, hosted_ok]
  unfold run
  rw [show (m.preceded lines).stirred = m.stirred.preceded lines from rfl, runFor_preceded]

theorem completed_oblivious (s : State) : Oblivious (completed s) := by
  refine .bind (run_oblivious s) fun ended => ?_
  cases ended with
  | ok vs => exact .pure vs
  | error v => exact .looking (fun _ _ => rfl) fun m => .throw (m.failure v)

theorem installLoader_oblivious (scripts : MountTable Source) :
    Oblivious (installLoader scripts) := by
  refine .bind (.hosted fun m => global_handles admits_true libraryName) fun library => ?_
  cases library with
  | table r => exact .hosted fun _ => loader_handles admits_true scripts r
  | _ => exact .throw _

theorem readField_oblivious (v : Value) (name : String) : Oblivious (readField v name) := by
  refine .bind (.hosted fun m => askField_handles admits_true _ trivial name ?_) fun s => ?_
  · exact List.forall_mem_nil _
  · refine .bind (run_oblivious s) fun ended => ?_
    cases ended with
    | ok vs => exact .pure _
    | error v => exact .looking (fun _ _ => rfl) fun m => .pure _

theorem readContract_oblivious (returned : Value) : Oblivious (readContract returned) := by
  unfold readContract
  split
  · refine .bind (readField_oblivious _ "id") fun id => ?_
    dsimp only
    split
    · split
      · refine .bind (.pure _) fun id => ?_
        split
        · exact .throw_bind
        · refine .bind (readField_oblivious _ "setup") fun setup => ?_
          split
          · exact .pure _
          · exact .throw _
          · exact .throw _
      · exact .throw_bind
    · exact .throw_bind
    · exact .throw_bind
  · exact .throw _

theorem runSetup_oblivious (setup : Value) : Oblivious (runSetup setup) := by
  refine .bind (.hosted fun _ => newContext_handles) fun r => ?_
  have table : Oblivious (hosted (capabilityTable (some r) [])) :=
    .hosted fun _ => capabilityTable_handles admits_true (some r) (List.forall_mem_nil _)
  refine .bind table fun ctx => ?_
  refine .bind (run_oblivious _) fun outcome => ?_
  refine .looking (fun _ _ => rfl) fun m => ?_
  refine .bind (.hosted fun _ => setContext_handles r none) fun _ => ?_
  cases outcome with
  | ok vs => exact .pure _
  | error v => exact .looking (fun _ _ => rfl) fun m => .throw (m.failure v)

theorem evaluateEntry_oblivious (scripts : MountTable Source) :
    Oblivious (evaluateEntry scripts) := by
  refine .bind (installLoader_oblivious scripts) fun _ => ?_
  split
  · exact .throw _
  · exact .looking (fun _ _ => rfl) fun _ => .throw _
  · refine .bind (completed_oblivious _) fun values => ?_
    refine .bind (readContract_oblivious _) fun contract => ?_
    refine .bind (runSetup_oblivious contract.2) fun setup => ?_
    exact .bind (.hosted fun _ => note_handles _) fun _ => .pure _

theorem testPredicate_oblivious (handle : Handle) (c : Channel) :
    Oblivious (testPredicate handle c) := by
  refine .looking (fun _ _ => rfl) fun m => ?_
  split
  · exact .throw _
  · refine .bind (.hosted fun _ => enter_handles admits_true _) fun channel => ?_
    exact .bind (completed_oblivious _) fun vs => .pure _

/-! ## Resolutions and compilations -/

/-- A machine answers alike whatever lines its log begins with. -/
theorem host_oblivious (lines : Array LogLine) :
    Machine.host.Simulates Machine.host (Machine.preceded lines) where
  test handle c m := by
    have blind := testPredicate_oblivious handle c m lines
    cases answered : testPredicate handle c m with
    | ok b t =>
      rw [answered] at blind
      rw [host_test_of_ok blind, host_test_of_ok answered]
      rfl
    | error e t =>
      rw [answered] at blind
      rw [host_test_of_error blind, host_test_of_error answered]
      rfl
  note line m := by
    show (m.preceded lines).noted line = (m.noted line).preceded lines
    simp [Machine.preceded, Machine.noted]

theorem preceded_empty (m : Machine) : m.preceded #[] = m := by
  unfold Machine.preceded
  rw [Array.empty_append]

/-- What a reset leaves of a machine is its log. -/
theorem reset_eq_preceded (m : Machine) (p : Platform) :
    m.reset p = (Machine.boot p).preceded m.log := by
  unfold Machine.reset Machine.preceded
  rw [boot_log, Array.append_empty]

end Script

open Script

/-- What is compiled on a machine does not depend on what was done with it before, nor on
whether that succeeded: on every platform it is what would be compiled on a new machine there.
So two compilations of a script differ in nothing but what their platforms do, say how objects are
called or in which order tables are visited, and whatever a used machine may come to, a new one
may come to as well. Of the machine only the log is kept, before what is logged by the
compilation; a script that is not there leaves the whole machine as it was. -/
theorem compile_independent (tree : Tree Source) (entry : String) (m : Machine) (p : Platform) :
    (compile tree entry m p).1 = (compile tree entry (.boot p) p).1 ∧
    (compile tree entry m p).2 =
      if (MountTable.scan tree entry).isOk then
        (compile tree entry (.boot p) p).2.preceded m.log
      else m := by
  unfold compile
  cases MountTable.scan tree entry with
  | error e => exact ⟨rfl, rfl⟩
  | ok scripts =>
    dsimp only
    rw [reset_eq_preceded m, reset_eq_preceded (.boot p), boot_log, preceded_empty,
      evaluateEntry_oblivious]
    cases evaluateEntry scripts (Machine.boot p) with
    | error e t => exact ⟨rfl, rfl⟩
    | ok d t =>
      dsimp only
      rw [(host_oblivious m.log).resolve d t]
      exact ⟨rfl, rfl⟩

end GuildPlan
