import GuildPlan.Proofs.History
import GuildPlan.Proofs.Questions

/-
  A machine as the host of predicates. It runs the function behind each handle that it is
  asked by, and it refuses a handle behind which there is none, without running anything. A
  resolution that asks by known handles only runs just the functions behind them.
-/
namespace GuildPlan.Script

/-- A function that was run, and the channel that it was run on. -/
abbrev Asked := FunctionRef × Channel

/-- Asks a function about a channel. -/
def askFunction (f : FunctionRef) (c : Channel) : Hosted Bool := do
  let channel ← hosted (enter c.toScript)
  return (first (← completed (.ofCall (.function f) [channel]))).truthy

theorem testPredicate_of_known {m : Machine} {handle : Handle} {f : FunctionRef}
    (known : m.registry.get? handle = some f) (c : Channel) :
    testPredicate handle c m = askFunction f c m := by
  have looked : (get : Hosted Machine) m = .ok m m := rfl
  unfold testPredicate
  rw [Hosted.bind_of_ok looked, known]
  rfl

theorem testPredicate_of_unknown {m : Machine} {handle : Handle}
    (unknown : m.registry.get? handle = none) (c : Channel) :
    testPredicate handle c m = .error (.danglingHandle handle) m := by
  have looked : (get : Hosted Machine) m = .ok m m := rfl
  unfold testPredicate
  rw [Hosted.bind_of_ok looked, unknown]
  rfl

theorem host_test_of_ok {m t : Machine} {handle : Handle} {c : Channel} {b : Bool}
    (ok : testPredicate handle c m = .ok b t) : Machine.host.test handle c m = (.ok b, t) := by
  unfold Machine.host
  dsimp only
  rw [ok]

theorem host_test_of_error {m t : Machine} {handle : Handle} {c : Channel} {e : Failure}
    (failed : testPredicate handle c m = .error e t) :
    Machine.host.test handle c m = (.error e, t) := by
  unfold Machine.host
  dsimp only
  rw [failed]

theorem enter_confined (v : Json) : Confined (enter v) :=
  .effect fun m => .memory m _ m.cells m.threads m.faults m.clock

theorem askFunction_contained (f : FunctionRef) (c : Channel) : Contained (askFunction f c) :=
  .bind (.hosted (enter_confined _)) fun _ => .bind (completed_contained _) fun _ => .pure _

theorem Effects.registry {m m' : Machine} (h : Effects m m') : m.registry.Within m'.registry := by
  obtain ⟨events, rfl, _⟩ := h.events
  exact m.afterAll_registry events

/-! ## Runs written down -/

/-- A machine as a host, with each function written down that is run, and its channel. -/
def Machine.watched : Host (Machine × List Asked) where
  test handle c s :=
    let (answer, m) := Machine.host.test handle c s.1
    (answer, m, s.2 ++ (s.1.registry.get? handle).toList.map (·, c))
  note line s := (Machine.host.note line s.1, s.2)

theorem Machine.watched_simulates : Machine.watched.Simulates Machine.host Prod.fst :=
  ⟨fun _ _ _ => rfl, fun _ _ => rfl⟩

/-- The functions that a machine runs when it resolves a declaration, and what on. -/
def Machine.runs (m : Machine) (d : Declaration) : List Asked :=
  (resolve Machine.watched d (m, [])).2.2

/-- Questions and the functions behind their handles, each to be run on the channel that its
question is about. -/
def Registry.Answers (g : Registry) : List Question → List Asked → Prop :=
  List.Forall₂ fun q a => g.get? q.handle = some a.1 ∧ q.channel = a.2

/-- As long as questions are put by known handles, the functions behind these are run in
turn. -/
theorem watched_keeps (g : Registry) (all : List Asked) : Machine.watched.Keeps
    (fun rest s => g.Within s.1.registry ∧ ∃ more, g.Answers rest more ∧ s.2 ++ more = all)
    (fun e s => (∀ handle, e ≠ .danglingHandle handle) ∧ s.2 <+: all) where
  note line rest s here := here
  test := by
    rintro ⟨handle, c⟩ rest ⟨m, ran⟩ ⟨within, more, answers, so_far⟩
    -- What has been run and what the questions to come are answered by make up `all`.
    cases answers with
    | @cons _ a _ more here others =>
      obtain ⟨f, c'⟩ := a
      obtain ⟨behind, same⟩ := here
      cases same
      have known : m.registry.get? handle = some f := within.get? behind
      have asked := askFunction_contained f c
      simp only [Machine.watched, Machine.host, known, testPredicate_of_known known]
      cases answered : askFunction f c m with
      | ok b t =>
        refine ⟨within.trans (asked.of_ok answered).registry, more, others, ?_⟩
        simpa using so_far
      | error e t =>
        refine ⟨(asked.of_error answered).2, more, ?_⟩
        simpa using so_far

/-- How a resolution ends, by what a watched one keeps: with a result and no more questions,
or with a failure. -/
theorem watched_ends {P : List Question → Machine × List Asked → Prop}
    {E : Failure → Machine × List Asked → Prop} (keeps : Machine.watched.Keeps P E) {m : Machine}
    {d : Declaration} (start : P d.questions (m, [])) :
    (∃ g t, (resolve Machine.host d m).1 = .ok g ∧ P [] (t, m.runs d)) ∨
    ∃ e t, (resolve Machine.host d m).1 = .error e ∧ E e (t, m.runs d) := by
  have ends := keeps.resolve start
  have same := Machine.watched_simulates.resolve d (m, [])
  unfold Machine.runs
  rw [show resolve Machine.host d m = _ from same]
  generalize resolve Machine.watched d (m, []) = result at ends ⊢
  obtain ⟨e | g, t⟩ := result
  · exact .inr ⟨e, t.1, rfl, ends⟩
  · exact .inl ⟨g, t.1, rfl, ends⟩

/-- A resolution that only asks by known handles never fails for an unknown one. It runs the
functions behind them in turn, all of them if it has a result. -/
theorem runs_of_answers {m : Machine} {d : Declaration} {asked : List Asked}
    (answers : m.registry.Answers d.questions asked) :
    (∀ handle, (resolve Machine.host d m).1 ≠ .error (.danglingHandle handle)) ∧
    m.runs d <+: asked ∧ ∀ g, (resolve Machine.host d m).1 = .ok g → m.runs d = asked := by
  rcases watched_ends (watched_keeps m.registry asked)
    ⟨.refl _, asked, answers, List.nil_append _⟩ with ⟨g, t, ok, ends⟩ | ⟨e, t, failed, ends⟩
  · obtain ⟨_, more, finished, all⟩ := ends
    cases finished
    have exactly : m.runs d = asked := (List.append_nil _).symm.trans all
    rw [ok]
    exact ⟨fun handle => nofun, exactly ▸ List.prefix_rfl, fun _ _ => exactly⟩
  · obtain ⟨other, so_far⟩ := ends
    rw [failed]
    refine ⟨fun handle same => ?_, so_far, fun g ok => nomatch ok⟩
    exact other handle (Except.error.inj same)

/-- A resolution whose first question is put by an unknown handle is refused for it, and runs
nothing. -/
theorem refused_of_unknown {m : Machine} {d : Declaration} {q : Question} {rest : List Question}
    (asks : d.questions = q :: rest) (unknown : m.registry.get? q.handle = none) :
    (resolve Machine.host d m).1 = .error (.danglingHandle q.handle) ∧ m.runs d = [] := by
  have keeps : Machine.watched.Keeps
      (fun qs s => qs = q :: rest ∧ s.1.registry = m.registry ∧ s.2 = [])
      (fun e s => e = .danglingHandle q.handle ∧ s.2 = []) := by
    refine ⟨fun q' qs s here => ?_, fun line qs s here => here⟩
    obtain ⟨first, same, nothing⟩ := here
    cases first
    have here : s.1.registry.get? q.handle = none := same ▸ unknown
    simp [Leads, Machine.watched, Machine.host, here, testPredicate_of_unknown here, nothing]
  rcases watched_ends keeps ⟨asks, rfl, rfl⟩ with ⟨g, t, _, more, _⟩ | ⟨e, t, failed, rfl, nothing⟩
  · cases more
  · exact ⟨failed, nothing⟩

/-- A resolution whose first question is put by a known handle runs the function behind it
first. -/
theorem runs_of_first_known {m : Machine} {d : Declaration} {q : Question} {rest : List Question}
    {f : FunctionRef} (asks : d.questions = q :: rest)
    (known : m.registry.get? q.handle = some f) : (f, q.channel) ∈ (m.runs d).head? := by
  -- Either the question is still to come, or its function was the first to be run.
  have keeps : Machine.watched.Keeps
      (fun qs s => (qs = q :: rest ∧ s.1.registry = m.registry ∧ s.2 = []) ∨
        (f, q.channel) ∈ s.2.head?)
      (fun _ s => (f, q.channel) ∈ s.2.head?) := by
    refine ⟨fun q' qs s here => ?_, fun line qs s here => here⟩
    have headed : (f, q.channel) ∈ (Machine.watched.test q'.handle q'.channel s).2.2.head? := by
      show (f, q.channel) ∈ (s.2 ++ (s.1.registry.get? q'.handle).toList.map (·, q'.channel)).head?
      rcases here with ⟨first, same, nothing⟩ | already
      · cases first
        rw [nothing, same, known]
        rfl
      · rw [List.head?_append, already]
        rfl
    generalize Machine.watched.test q'.handle q'.channel s = answer at headed ⊢
    obtain ⟨e | b, t⟩ := answer
    · exact headed
    · exact .inr headed
  rcases watched_ends keeps (.inl ⟨asks, rfl, rfl⟩) with ⟨g, t, _, ends⟩ | ⟨e, t, _, ends⟩
  · exact ends.resolve_left fun more => nomatch more.1
  · exact ends

end GuildPlan.Script
