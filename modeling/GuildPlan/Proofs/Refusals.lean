import GuildPlan.Proofs.Runs
import GuildPlan.Proofs.Sample

/-
  Refused declarations and other faults. A refused call raises an error object, and this object
  may be caught and raised again, kept, or passed on by a loader, which makes another one of it.
  A compilation fails for a refused declaration if and only if it is such an object that escapes
  from the scripts in the end; of anything else that escapes only the text is told. A table or a
  string that escapes may have a handler that puts it into words: then what this handler raises
  escapes in its place.
-/
namespace GuildPlan
namespace Script

/-- Nothing waits but the host, which makes an error object of whatever is raised. -/
def Stack.IsHost (stack : Stack) : Prop := ∀ f ∈ stack, f.convertsRaised = true

namespace Machine

theorem raised_eq_invalid_iff {m : Machine} {v : Value} {e : Invalid} :
    m.raised v = .invalid e ↔ v.refusal? = some e := by
  cases v with
  | fault id f => cases f <;> simp [raised, Value.refusal?]
  | _ => simp [raised, Fault.ofText, Value.refusal?]

theorem refusal?_fault_raised (m : Machine) (id : Nat) (v : Value) :
    (Value.fault id (m.raised v)).refusal? = v.refusal? := by
  cases v with
  | fault id f => cases f <;> rfl
  | _ => rfl

theorem failure_of_refusal {m : Machine} {v : Value} {e : Invalid} (refusal : v.refusal? = some e) :
    m.failure v = .invalid e := by
  unfold failure
  rw [raised_eq_invalid_iff.2 refusal]

theorem words_eq (m : Machine) (v : Value) : ∃ id, m.words v = m.faultText id (m.raised v) := by
  cases v with
  | fault id f => exact ⟨id, rfl⟩
  | _ => exact ⟨m.faults, rfl⟩

/-- Of what is no refused declaration the host has the text of an error object. -/
theorem failure_of_other {m : Machine} {v : Value} (other : v.refusal? = none) :
    ∃ id, m.failure v = .script (m.faultText id (m.raised v)) := by
  obtain ⟨id, words⟩ := m.words_eq v
  refine ⟨id, ?_⟩
  unfold failure
  split
  · next e told => cases other.symm.trans (raised_eq_invalid_iff.1 told)
  · rw [words]

end Machine

/-- No handler puts an error object into words. -/
theorem Machine.handler_of_refusal {v : Value} {e : Invalid} (refusal : v.refusal? = some e)
    (m : Machine) (name : String) : m.handler name v = .nil := by
  cases v with
  | fault id f => rfl
  | _ => cases refusal

end Script

open Script

namespace Job
variable {job : Job} {m : Machine} {v : Value} {e : Invalid}

/-! ## Where error objects come from -/

/-- A value is the error object that a refused call has raised, or one that was raised in place
of such an object on its way through the host. -/
inductive Stems (job : Job) (e : Invalid) : Value → Prop
  | refused {stage : Stage} {n : Nat} {s : State} {m : Machine} {v : Value} :
    job.Runs stage (n + 1) s m → Refuses m s e → Raises m s v → Stems job e v
  | passed {stage : Stage} {n : Nat} {v v' : Value} {f : Frame} {stack : Stack} {m : Machine} :
    Stems job e v → job.Runs stage (n + 1) ⟨.raise v, f :: stack⟩ m → f.convertsRaised = true →
    Raises m ⟨.raise v, f :: stack⟩ v' → Stems job e v'

/-- Such a value tells just what the call was refused for. -/
theorem Stems.refusal (stems : job.Stems e v) : v.refusal? = some e := by
  induction stems with
  | refused _ refuses raises => exact refuses.refusal raises
  | @passed _ _ v v' f stack m _ _ converts raises ih =>
    have stepped := step_converted converts (m.handler_of_refusal ih "__tostring") stack
    rw [raises.unique ⟨stack, _, stepped⟩, m.refusal?_fault_raised]
    exact ih

/-- An error object of a refused declaration comes from a call that was refused. -/
def Accounts (job : Job) (v : Value) : Prop := ∀ e, v.refusal? = some e → job.Stems e v

theorem accounts_plain (job : Job) : Admits job.Accounts := by
  intro v none e refusal
  rw [none] at refusal
  cases refusal

theorem accounts_keeps (job : Job) : job.Keeps job.Accounts where
  plain := job.accounts_plain
  step stage n s m runs there := by
    refine step_handles job.accounts_plain there (fun e v refuses raises e' refusal => ?_)
      fun v f stack same converts unworded e refusal => ?_
    · -- A call is refused, and tells what it is refused for.
      cases (refuses.refusal raises).symm.trans refusal
      exact .refused runs refuses raises
    · -- The host makes an error object of a raised value, which is accounted for itself.
      subst same
      have stepped := step_converted converts unworded stack
      rw [m.refusal?_fault_raised] at refusal
      exact .passed (there.control e refusal) runs converts ⟨stack, _, stepped⟩

/-! ## What escapes -/

/-- A value is raised by a script and nothing holds it back any more, with enough steps left for
the host to come by it. -/
def Escapes (job : Job) (v : Value) (m : Machine) : Prop :=
  ∃ stage n, ∃ stack : Stack, stage.tells = true ∧ stack.IsHost ∧
    job.Runs stage (stack.length + (n + 1)) ⟨.raise v, stack⟩ m

/-- A handler has put into words what escapes. -/
def Rewords (job : Job) (bytes : ByteArray) (m : Machine) : Prop :=
  ∃ stage n depth vs, ∃ stack : Stack, stage.tells = true ∧ stack.IsHost ∧
    (first vs).bytes? = some bytes ∧
    job.Runs stage (stack.length + (n + 2)) ⟨.give vs, .message depth :: stack⟩ m

/-- What escapes and is not put into words by a handler is what the job ends with. -/
theorem runFor_of_isHost {stack : Stack} (host : stack.IsHost)
    (unworded : m.handler "__tostring" v = .nil) (n : Nat) :
    ∃ w t, runFor (stack.length + (n + 1)) ⟨.raise v, stack⟩ m = (.error w, t) ∧
      w.refusal? = v.refusal? ∧ t.raised w = m.raised v ∧ t.platform = m.platform := by
  induction stack generalizing v m with
  | nil =>
    rw [List.length_nil, Nat.zero_add]
    exact ⟨v, m, rfl, rfl, rfl, rfl⟩
  | cons f stack ih =>
    obtain ⟨converts, host⟩ := List.forall_mem_cons.1 host
    have stepped := step_converted converts unworded stack
    obtain ⟨w, t, raised, refusal, same, platform⟩ :=
      ih (v := .fault m.faults (m.raised v)) host rfl
    rw [List.length_cons, Nat.add_right_comm, runFor_succ_of_going stepped]
    exact ⟨w, t, raised, refusal.trans (m.refusal?_fault_raised _ v), same, platform⟩

theorem Escapes.refused (escapes : job.Escapes v m) (refusal : v.refusal? = some e) :
    job.answer = .error (.invalid e) := by
  obtain ⟨stage, n, stack, tells, host, runs⟩ := escapes
  have unworded := m.handler_of_refusal refusal "__tostring"
  obtain ⟨w, t, raised, kept, _, _⟩ := runFor_of_isHost host unworded n
  rw [runs.answer_of_raised tells raised, Machine.failure_of_refusal (kept.trans refusal)]

theorem Escapes.told (escapes : job.Escapes v m) (other : v.refusal? = none)
    (unworded : m.handler "__tostring" v = .nil) :
    ∃ id, job.answer = .error (.script (m.faultText id (m.raised v))) := by
  obtain ⟨stage, n, stack, tells, host, runs⟩ := escapes
  obtain ⟨w, t, raised, kept, same, platform⟩ := runFor_of_isHost host unworded n
  obtain ⟨id, failure⟩ := Machine.failure_of_other (m := t) (kept.trans other)
  refine ⟨id, ?_⟩
  rw [runs.answer_of_raised tells raised, failure, same]
  unfold Machine.faultText
  rw [platform]

/-- What a handler says escapes as the text of an error object. -/
theorem Rewords.told {bytes : ByteArray} (rewords : job.Rewords bytes m) :
    ∃ id, job.answer = .error (.script (m.faultText id (.ofText bytes))) := by
  obtain ⟨stage, n, depth, vs, stack, tells, host, words, runs⟩ := rewords
  have stepped : step ⟨.give vs, .message depth :: stack⟩ m =
      (.going ⟨.raise (.fault m.faults (.ofText bytes)), stack⟩,
        { m with faults := m.faults + 1 }) := by
    show (Status.going ((Frame.message depth).given vs stack m).1,
      ((Frame.message depth).given vs stack m).2) = _
    unfold Frame.given
    dsimp only
    rw [words]
    rfl
  have escapes : job.Escapes (.fault m.faults (.ofText bytes))
      (Machine.stirred { m with faults := m.faults + 1 }) :=
    ⟨stage, n, stack, tells, host, runs.step stepped⟩
  exact escapes.told rfl rfl

/-- What ends a run has escaped, if the run has an end. -/
theorem Begins.escapes {stage : Stage} {s : State} {t : Machine} (begins : job.Begins stage s m)
    (tells : stage.tells = true) (raised : run s m = (.error v, t)) (ends : v ≠ endless) :
    job.Escapes v t := by
  rcases (Runs.begins begins).raise_of_raised raised with never | ⟨k, runs⟩
  · exact absurd never ends
  · exact ⟨stage, k, [], tells, List.forall_mem_nil _, by rwa [List.length_nil, Nat.zero_add]⟩

theorem Escapes.stems (escapes : job.Escapes v m) (refusal : v.refusal? = some e) :
    job.Stems e v := by
  obtain ⟨stage, n, stack, _, _, runs⟩ := escapes
  exact (runs.holds job.accounts_keeps).1.control e refusal

end Job

namespace Job
variable {job : Job} {m : Machine} {v : Value} {e : Invalid}

/-- What a job is refused for, if it is refused. -/
def refusal? (job : Job) : Option Invalid :=
  match job.answer with
  | .error (.invalid e) => some e
  | _ => none

end Job

end GuildPlan
