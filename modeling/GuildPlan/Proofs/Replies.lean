import GuildPlan.Proofs.Conversion
import GuildPlan.Proofs.Recording
import GuildPlan.Script.Loader

/-
  Calls of capabilities, and all that can come of one: what it answers, what it leaves of the
  registry, and what it makes of a setup context.
-/
namespace GuildPlan.Script

variable {α β : Type}

theorem run_bind (x : Run α) (f : α → Run β) (m : Machine) :
    (x >>= f) m = f (x m).1 (x m).2 := rfl

theorem run_get_bind (f : Machine → Run β) (m : Machine) : (get >>= f) m = f m m := rfl

theorem run_modifyGet (f : Machine → α × Machine) (m : Machine) :
    (modifyGet f : Run α) m = f m := rfl

/-! ## Contexts -/

theorem setContext_context (r r' : ContextRef) (context : Context) (m : Machine) :
    (setContext r' context m).2.context r =
      if r = r' ∧ r.index < m.contexts.size then context else m.context r := by
  show (m.contexts.setIfInBounds r'.index context).getD r.index none = _
  rw [Array.getD_eq_getD_getElem?, Array.getElem?_setIfInBounds]
  by_cases same : r = r'
  · subst same
    by_cases inside : r.index < m.contexts.size
    · simp [inside]
    · simp [inside, Machine.context]
  · have apart : r'.index ≠ r.index := by
      intro equal
      cases r
      cases r'
      exact same (congrArg _ equal.symm)
    simp [apart, same, Machine.context]

theorem Machine.context_congr {m m' : Machine} (same : m'.contexts = m.contexts)
    (r : ContextRef) : m'.context r = m.context r := by
  unfold Machine.context
  rw [same]

theorem newContext_context {m t : Machine} {r : ContextRef} (opened : newContext m = (r, t)) :
    t.context r = some {} := by
  cases opened
  show (m.contexts.push (some {})).getD m.contexts.size none = some {}
  rw [Array.getD_eq_getD_getElem?, Array.getElem?_push_size]
  rfl

theorem context_size {m : Machine} {r : ContextRef} {s : Setup} (open_ : m.context r = some s) :
    r.index < m.contexts.size := by
  by_contra outside
  unfold Machine.context at open_
  rw [Array.getD_eq_getD_getElem?, Array.getElem?_eq_none (Nat.le_of_not_lt outside)] at open_
  cases open_

/-! ## Calls -/

/-- What a call of a capability comes to: it is refused and no context changes, or it is
accepted through the library, which changes no context either, or it is accepted through a
context, which becomes what the declaration makes of it. -/
inductive Reply (c : Capability) (m : Machine) :
    Option ContextRef → Value → Except Fault Value × Machine → Prop
  | refused {context : Option ContextRef} {arg : Value} {e : Invalid} {m' : Machine}
    (kept : m.registry.Within m'.registry) (contexts : m'.contexts = m.contexts) :
    Reply c m context arg (.error (.invalid e), m')
  | checked {t : TableRef} {json : Json} {entity : Entity} {v : Value} {m' : Machine}
    (given : toJson m.heap c.location (.table t) m.registry = .ok json m'.registry)
    (read : c.read json = .ok entity) (contexts : m'.contexts = m.contexts) :
    Reply c m none (.table t) (.ok v, m')
  | declared {r : ContextRef} {t : TableRef} {json : Json} {entity : Entity} {after : Context}
    {v : Value} {m' : Machine}
    (given : toJson m.heap c.location (.table t) m.registry = .ok json m'.registry)
    (accepted : c.declare (m.context r) json = .ok (entity, after))
    (contexts : m'.contexts = (setContext r after m).2.contexts) :
    Reply c m (some r) (.table t) (.ok v, m')

theorem readOnly_cases (c : Capability) (json : Json) (m : Machine) :
    (∃ e, readOnly c json m = (.error (.invalid e), m)) ∨
      ∃ entity v m', readOnly c json m = (.ok v, m') ∧ c.read json = .ok entity ∧
        m'.contexts = m.contexts ∧ m'.registry = m.registry := by
  unfold readOnly
  cases read : c.read json with
  | error e => exact .inl ⟨e, rfl⟩
  | ok entity =>
    dsimp only
    split <;> exact .inr ⟨entity, _, _, rfl, rfl, rfl, rfl⟩

theorem declareIn_cases (c : Capability) (r : ContextRef) (json : Json) (m : Machine) :
    (∃ e, declareIn c r json m = (.error (.invalid e), m)) ∨
      ∃ entity after v m', declareIn c r json m = (.ok v, m') ∧
        c.declare (m.context r) json = .ok (entity, after) ∧
        m'.contexts = (setContext r after m).2.contexts ∧ m'.registry = m.registry := by
  unfold declareIn
  rw [run_get_bind]
  cases declared : c.declare (m.context r) json with
  | error e => exact .inl ⟨e, rfl⟩
  | ok pair => exact .inr ⟨pair.1, pair.2, _, _, rfl, rfl, rfl, rfl⟩

theorem runCapability_reply (c : Capability) (context : Option ContextRef) (arg : Value)
    (m : Machine) : Reply c m context arg (runCapability c context arg m) := by
  cases arg with
  | table t =>
    unfold runCapability
    dsimp only
    rw [run_bind]
    unfold leave
    rw [run_modifyGet]
    have converts := toJson_converts m.heap c.location (.table t) m.registry
    cases given : toJson m.heap c.location (.table t) m.registry with
    | error e g => exact .refused (converts.of_error given) rfl
    | ok json g =>
      have within := (converts.of_ok given).1
      -- What is read and declared next finds the machine as it was, but for the registry.
      let left : Machine := { m with registry := g }
      cases context with
      | none =>
        show Reply c m none _ (readOnly c json left)
        rcases readOnly_cases c json left with ⟨e, refused⟩ | ⟨_, v, m', done, read, same, kept⟩
        · rw [refused]
          exact .refused within rfl
        · rw [done]
          exact .checked (kept ▸ given) read same
      | some r =>
        show Reply c m (some r) _ (declareIn c r json left)
        rcases declareIn_cases c r json left with
          ⟨e, refused⟩ | ⟨_, after, v, m', done, accepted, changed, kept⟩
        · rw [refused]
          exact .refused within rfl
        · rw [done]
          exact .declared (kept ▸ given) accepted changed
  | _ => exact .refused (.refl _) rfl

theorem runCapability_registry (c : Capability) (context : Option ContextRef) (arg : Value)
    (m : Machine) : m.registry.Within (runCapability c context arg m).2.registry := by
  have reply := runCapability_reply c context arg m
  revert reply
  generalize runCapability c context arg m = result
  rintro (⟨kept, _⟩ | ⟨given, _, _⟩ | ⟨given, _, _⟩)
  · exact kept
  · exact ((toJson_converts m.heap c.location _ m.registry).of_ok given).1
  · exact ((toJson_converts m.heap c.location _ m.registry).of_ok given).1

/-- A call through a context is a call on it, and nothing to the others. -/
theorem runCapability_context (c : Capability) (context : Option ContextRef) (arg : Value)
    (r : ContextRef) (m : Machine) :
    ∃ calls, (runCapability c context arg m).2.context r = (m.context r).afterAll calls := by
  have reply := runCapability_reply c context arg m
  generalize runCapability c context arg m = result at reply
  cases reply with
  | refused _ contexts => exact ⟨[], Machine.context_congr contexts r⟩
  | checked _ _ contexts => exact ⟨[], Machine.context_congr contexts r⟩
  | @declared r' t json entity after _ _ _ accepted contexts =>
    have written := (Machine.context_congr contexts r).trans (setContext_context r r' after m)
    -- A context that the machine does not have is closed before and after.
    by_cases here : r = r' ∧ r.index < m.contexts.size
    · obtain ⟨rfl, inside⟩ := here
      refine ⟨[⟨c, .ok json⟩], (written.trans (if_pos ⟨rfl, inside⟩)).trans ?_⟩
      exact (Context.after_eq_of_declare accepted).symm
    · exact ⟨[], written.trans (if_neg here)⟩

end GuildPlan.Script
