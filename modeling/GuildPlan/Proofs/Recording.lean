import GuildPlan.Proofs.Checked

/-
  Setups as calls build them. A call whose argument is accepted adds at most what it declares
  and only under ids that are free, and any other call adds nothing, so no id is ever taken
  twice.
-/
namespace GuildPlan

/-- A call through a setup context, with what its argument is as JSON, if it can be. -/
structure Call where
  capability : Capability
  argument : Schema.Checked Json

/-- The context after a call; a call that is refused leaves it as it is. -/
def Context.after (context : Context) (call : Call) : Context :=
  match call.argument >>= call.capability.declare context with
  | .ok (_, after) => after
  | .error _ => context

/-- The context after some calls in turn. -/
def Context.afterAll (context : Context) (calls : List Call) : Context :=
  calls.foldl Context.after context

theorem Context.after_eq_of_declare {context after : Context} {c : Capability} {v : Json}
    {e : Entity} (ok : c.declare context v = .ok (e, after)) :
    context.after ⟨c, .ok v⟩ = after := by
  have given : (Except.ok v : Schema.Checked Json) >>= c.declare context = .ok (e, after) := ok
  unfold Context.after
  rw [given]

theorem Context.afterAll_append (context : Context) (first second : List Call) :
    context.afterAll (first ++ second) = (context.afterAll first).afterAll second :=
  List.foldl_append

theorem notMem_of_requireUnused {location : Location} {taken ids : List Snowflake} {u : Unit}
    (ok : requireUnused location taken ids = .ok u) : ∀ id ∈ ids, id ∉ taken := by
  unfold requireUnused at ok
  split at ok
  · cases ok
  · next none =>
    intro id mem used
    exact List.find?_eq_none.1 none id mem (List.contains_iff_mem.2 used)

namespace Setup.Distinct
variable {s : Setup}

theorem empty : ({} : Setup).Distinct where
  globals := List.forall_mem_nil _
  categories := List.forall_mem_nil _
  nested := List.forall_mem_nil _
  channelIds := List.nodup_nil
  roleIds := List.nodup_nil

theorem addChannel (h : s.Distinct) {c : Channel} (overrides : DistinctSubjects c.overrides)
    (unused : c.id ∉ s.channelIds) : (s.addChannel c).Distinct where
  globals := List.forall_mem_append.2 ⟨h.globals, List.forall_mem_singleton.2 overrides⟩
  categories := h.categories
  nested := h.nested
  channelIds := by
    have ids : (s.addChannel c).channelIds.Perm (c.id :: s.channelIds) := by
      rw [Setup.channelIds_eq, Setup.channelIds_eq]
      unfold Setup.addChannel
      rw [List.map_append, List.append_assoc]
      exact List.perm_middle
    exact ids.nodup_iff.2 (List.nodup_cons.2 ⟨unused, h.channelIds⟩)
  roleIds := h.roleIds

theorem addRole (h : s.Distinct) {r : Role} (unused : r.id ∉ s.roleIds) :
    (s.addRole r).Distinct where
  toSubjectsDistinct := ⟨h.globals, h.categories, h.nested⟩
  channelIds := h.channelIds
  roleIds := by
    have ids : (s.addRole r).roleIds = s.roleIds ++ [r.id] := List.map_append
    rw [ids]
    exact List.nodup_append_comm.1 (List.nodup_cons.2 ⟨unused, h.roleIds⟩)

theorem addCategory (h : s.Distinct) {c : Category} (distinct : c.Distinct)
    (unused : ∀ id ∈ c.ids, id ∉ s.channelIds) : (s.addCategory c).Distinct where
  globals := h.globals
  categories := List.forall_mem_append.2
    ⟨h.categories, List.forall_mem_singleton.2 distinct.overrides⟩
  nested := List.forall_mem_append.2 ⟨h.nested, List.forall_mem_singleton.2 distinct.nested⟩
  channelIds := by
    have ids : (s.addCategory c).channelIds = s.channelIds ++ c.ids := by
      rw [Setup.channelIds_eq, Setup.channelIds_eq]
      unfold Setup.addCategory
      rw [List.flatMap_append, List.flatMap_singleton, List.append_assoc]
    rw [ids]
    exact List.nodup_append'.2 ⟨h.channelIds, distinct.ids, fun id used mem => unused id mem used⟩
  roleIds := h.roleIds

theorem record (h : s.Distinct) {location : Location} {e : Entity} {s' : Setup}
    (distinct : e.Distinct) (ok : s.record location e = .ok s') : s'.Distinct := by
  cases e with
  | channel c =>
    obtain ⟨_, unused, ok⟩ := Schema.Checked.bind_eq_ok.1 ok
    cases ok
    exact h.addChannel distinct (notMem_of_requireUnused unused c.id List.mem_cons_self)
  | role r =>
    obtain ⟨_, unused, ok⟩ := Schema.Checked.bind_eq_ok.1 ok
    cases ok
    exact h.addRole (notMem_of_requireUnused unused r.id List.mem_cons_self)
  | category c =>
    obtain ⟨_, unused, ok⟩ := Schema.Checked.bind_eq_ok.1 ok
    cases ok
    exact h.addCategory distinct (notMem_of_requireUnused unused)
  | builder e =>
    cases ok
    exact h

end Setup.Distinct

/-- What an accepted call does: it reads an entity, and it leaves the context as it is or
records the entity in the open one. -/
theorem Capability.declare_eq_ok {c : Capability} {context after : Context} {v : Json} {e : Entity}
    (ok : c.declare context v = .ok (e, after)) : c.read v = .ok e ∧
      (c.records = false ∧ after = context ∨
        c.records = true ∧ ∃ s s', context = some s ∧ s.record c.location e = .ok s' ∧
          after = some s') := by
  unfold Capability.declare at ok
  obtain ⟨entity, read, ok⟩ := Schema.Checked.bind_eq_ok.1 ok
  cases records : c.records with
  | false =>
    rw [records] at ok
    cases ok
    exact ⟨read, .inl ⟨rfl, rfl⟩⟩
  | true =>
    rw [records] at ok
    cases context with
    | none => cases ok
    | some s =>
      obtain ⟨s', recorded, ok⟩ := Schema.Checked.bind_eq_ok.1 ok
      cases ok
      exact ⟨read, .inr ⟨rfl, s, s', rfl, recorded, rfl⟩⟩

/-- An open context stays open, whatever is called. -/
theorem Context.after_open (s : Setup) (call : Call) :
    ∃ s', Context.after (some s) call = some s' := by
  unfold Context.after
  split
  · next e after ok =>
    obtain ⟨v, _, ok⟩ := Schema.Checked.bind_eq_ok.1 ok
    obtain ⟨_, ⟨_, rfl⟩ | ⟨_, _, s', _, _, rfl⟩⟩ := Capability.declare_eq_ok ok
    · exact ⟨s, rfl⟩
    · exact ⟨s', rfl⟩
  · exact ⟨s, rfl⟩

theorem Context.afterAll_open (s : Setup) (calls : List Call) :
    ∃ s', Context.afterAll (some s) calls = some s' := by
  induction calls generalizing s with
  | nil => exact ⟨s, rfl⟩
  | cons call calls ih =>
    obtain ⟨next, here⟩ := Context.after_open s call
    obtain ⟨last, rest⟩ := ih next
    refine ⟨last, ?_⟩
    show Context.afterAll (Context.after (some s) call) calls = some last
    rw [here, rest]

/-- Nothing in a context is declared twice, if it is open. -/
def Context.Distinct (context : Context) : Prop := ∀ s ∈ context, s.Distinct

namespace Context

theorem Distinct.after {context : Context} (h : context.Distinct) (call : Call) :
    (context.after call).Distinct := by
  unfold Context.after
  split
  · next e after ok =>
    obtain ⟨v, _, ok⟩ := Schema.Checked.bind_eq_ok.1 ok
    obtain ⟨read, ⟨_, rfl⟩ | ⟨_, s, s', rfl, recorded, rfl⟩⟩ := Capability.declare_eq_ok ok
    · exact h
    · rintro _ ⟨⟩
      exact (h s rfl).record (Capability.read_distinct read) recorded
  · exact h

theorem Distinct.afterAll {context : Context} (h : context.Distinct) (calls : List Call) :
    (context.afterAll calls).Distinct := by
  induction calls generalizing context with
  | nil => exact h
  | cons call calls ih => exact ih (h.after call)

end Context

/-- Whatever is called, accepted or not, nothing is declared twice. -/
theorem Setup.Distinct.of_calls {calls : List Call} {s : Setup}
    (built : Context.afterAll (some {}) calls = some s) : s.Distinct := by
  have start : Context.Distinct (some {}) := by
    rintro _ ⟨⟩
    exact .empty
  exact start.afterAll calls s built

end GuildPlan
