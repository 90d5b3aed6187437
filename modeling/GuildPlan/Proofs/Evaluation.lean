import GuildPlan.Compilation
import GuildPlan.Proofs.Effects

/-
  What the host does through runs. Besides the handle that a predicate is asked by, and the
  contexts that a setup opens and closes, all of it has the effects of scripts only, whether
  it succeeds or fails.
-/
namespace GuildPlan.Script

variable {α β : Type}

/-! ## Tables of functions -/

theorem functionTable_confined (fields : List (String × Callable)) :
    Confined (functionTable fields) :=
  .bind (.mapM (fun _ => .then_pure _ (newFunction_confined _)) fields) fun _ =>
    .then_pure _ (newTable_confined _)

theorem capabilityTable_confined (context : Option ContextRef)
    (constants : List (String × Value)) : Confined (capabilityTable context constants) :=
  .bind (functionTable_confined _) fun _ => .bind (functionTable_confined _) fun _ =>
    .bind (functionTable_confined _) fun _ => .bind (newFunction_confined _) fun _ =>
      .then_pure _ (newTable_confined _)

/-! ## In turn -/

theorem Hosted.bind_eq_ok {x : Hosted α} {f : α → Hosted β} {b : β} {m m' : Machine}
    (ok : (x >>= f) m = .ok b m') : ∃ a t, x m = .ok a t ∧ f a t = .ok b m' := by
  change EStateM.bind x f m = .ok b m' at ok
  unfold EStateM.bind at ok
  cases found : x m with
  | ok a t =>
    rw [found] at ok
    exact ⟨a, t, rfl, ok⟩
  | error e t =>
    rw [found] at ok
    cases ok

theorem Hosted.bind_eq_error {x : Hosted α} {f : α → Hosted β} {e : Failure} {m m' : Machine}
    (failed : (x >>= f) m = .error e m') :
    x m = .error e m' ∨ ∃ a t, x m = .ok a t ∧ f a t = .error e m' := by
  change EStateM.bind x f m = .error e m' at failed
  unfold EStateM.bind at failed
  cases found : x m with
  | ok a t =>
    rw [found] at failed
    exact .inr ⟨a, t, rfl, failed⟩
  | error e t =>
    rw [found] at failed
    cases failed
    exact .inl rfl

theorem Hosted.bind_of_ok {x : Hosted α} {a : α} {m t : Machine} (ok : x m = .ok a t)
    (f : α → Hosted β) : (x >>= f) m = f a t := by
  change EStateM.bind x f m = _
  unfold EStateM.bind
  rw [ok]

theorem Hosted.bind_of_error {x : Hosted α} {e : Failure} {m t : Machine} (failed : x m = .error e t)
    (f : α → Hosted β) : (x >>= f) m = .error e t := by
  change EStateM.bind x f m = _
  unfold EStateM.bind
  rw [failed]

theorem hosted_ok (x : Run α) (m : Machine) : hosted x m = .ok (x m).1 (x m).2 := rfl

/-! ## What the host does -/

/-- Something the host does that has no effects but those of scripts, and that fails, if it
does, for another reason than an unknown handle. -/
def Contained (x : Hosted α) : Prop :=
  ∀ m, match x m with
    | .ok _ t => Effects m t
    | .error e t => Effects m t ∧ ∀ handle, e ≠ .danglingHandle handle

namespace Contained

theorem of_ok {x : Hosted α} (h : Contained x) {a : α} {m t : Machine} (ok : x m = .ok a t) :
    Effects m t := by
  have here := h m
  rw [ok] at here
  exact here

theorem of_error {x : Hosted α} (h : Contained x) {e : Failure} {m t : Machine}
    (error : x m = .error e t) : Effects m t ∧ ∀ handle, e ≠ .danglingHandle handle := by
  have here := h m
  rw [error] at here
  exact here

theorem pure (a : α) : Contained (Pure.pure a) := fun _ => .refl

theorem throw {e : Failure} (other : ∀ handle, e ≠ .danglingHandle handle) :
    Contained (MonadExcept.throw e : Hosted α) := fun _ => ⟨.refl, other⟩

theorem hosted {x : Run α} (confined : Confined x) : Contained (hosted x) := confined

theorem bind {x : Hosted α} {f : α → Hosted β} (first : Contained x)
    (rest : ∀ a, Contained (f a)) : Contained (x >>= f) := by
  intro m
  change match EStateM.bind x f m with | .ok _ t => _ | .error _ t => _
  unfold EStateM.bind
  cases done : x m with
  | error e t => exact first.of_error done
  | ok a t =>
    have here := first.of_ok done
    dsimp only
    cases more : f a t with
    | error e t' =>
      obtain ⟨there, other⟩ := (rest a).of_error more
      exact ⟨here.trans there, other⟩
    | ok b t' => exact here.trans ((rest a).of_ok more)

/-- What is done after a look at the machine. -/
theorem looking {f : Machine → Hosted α} (rest : ∀ m, Contained (f m)) :
    Contained (MonadState.get >>= f) := .bind (fun _ => .refl) rest

/-- Nothing comes after a failure. -/
theorem throw_bind {e : Failure} {f : α → Hosted β}
    (other : ∀ handle, e ≠ .danglingHandle handle) : Contained (MonadExcept.throw e >>= f) :=
  fun _ => ⟨.refl, other⟩

end Contained

theorem Machine.failure_ne (m : Machine) (v : Value) (handle : Handle) :
    m.failure v ≠ .danglingHandle handle := by
  unfold Machine.failure
  split <;> nofun

theorem completed_contained (s : State) : Contained (completed s) := by
  refine .bind (.hosted (run_confined s)) fun ended => ?_
  cases ended with
  | ok vs => exact .pure vs
  | error v => exact .looking fun m => .throw (m.failure_ne v)

theorem newFields_confined (fields : List (String × Value)) : Confined (newFields fields) :=
  .then_pure _ (newTable_confined _)

theorem installLoader_contained (scripts : MountTable Source) :
    Contained (installLoader scripts) := by
  refine .bind (.hosted (global_confined libraryName)) fun library => ?_
  cases library with
  | table r =>
    exact .hosted (.bind (newFields_confined _) fun _ => .bind (newFields_confined _) fun _ =>
      .bind (setGlobal_confined _ _) fun _ => .bind (newFunction_confined _) fun _ =>
        setGlobal_confined _ _)
  | _ => exact .throw (fun _ => nofun)

theorem readField_contained (v : Value) (name : String) : Contained (readField v name) := by
  refine .bind (.hosted (askField_confined _ v name [])) fun s => ?_
  refine .bind (.hosted (run_confined s)) fun ended => ?_
  cases ended with
  | ok vs => exact .pure _
  | error v => exact .looking fun m => .pure _

theorem readContract_contained (returned : Value) : Contained (readContract returned) := by
  unfold readContract
  split
  · refine .bind (readField_contained _ "id") fun id => ?_
    dsimp only
    split
    · split
      · refine .bind (.pure _) fun id => ?_
        split
        · exact .throw_bind (fun _ => nofun)
        · refine .bind (readField_contained _ "setup") fun setup => ?_
          split
          · exact .pure _
          · exact .throw (fun _ => nofun)
          · exact .throw (fun _ => nofun)
      · exact .throw_bind (fun _ => nofun)
    · exact .throw_bind (fun _ => nofun)
    · exact .throw_bind (fun _ => nofun)
  · exact .throw (fun _ => nofun)

end GuildPlan.Script
