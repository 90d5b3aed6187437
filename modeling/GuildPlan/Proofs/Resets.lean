import GuildPlan.Proofs.Booting
import GuildPlan.Proofs.Predicates

/-
  Declarations that outlive their interpreter. A handle is a position in the registry of its
  interpreter and nothing else, and a reset begins a registry anew. So a declaration from
  before a reset is refused only as long as too little has been registered since; after that
  its handles denote functions that have nothing to do with it.
-/
namespace GuildPlan.Script

/-- After a reset nothing is registered. -/
theorem reset_registry_size (m : Machine) (p : Platform) : (m.reset p).registry.size = 0 := by
  have same : (m.reset p).registry = (Machine.boot p).registry := by
    unfold Machine.reset
    dsimp only
  rw [same, boot_registry]
  rfl

/-- What a machine that has been reset makes of a declaration that asks something. If fewer
functions have been registered since than the first handle counts, it is refused for this
handle and nothing is run; otherwise one of these functions is run for it first. -/
theorem resolve_after_reset (m : Machine) (p : Platform) (later : List Event) {d : Declaration} {q : Question}
    {rest : List Question} (asks : d.questions = q :: rest) :
    (m.reset p).registry.size = 0 ∧
    (((m.reset p).afterAll later).registry.size ≤ q.handle.index →
      (resolve Machine.host d ((m.reset p).afterAll later)).1 = .error (.danglingHandle q.handle) ∧
      ((m.reset p).afterAll later).runs d = []) ∧
    (q.handle.index < ((m.reset p).afterAll later).registry.size →
      ∃ f, ((m.reset p).afterAll later).registry.get? q.handle = some f ∧
        (f, q.channel) ∈ (((m.reset p).afterAll later).runs d).head?) := by
  refine ⟨reset_registry_size m p, fun beyond => ?_, fun inside => ?_⟩
  · exact refused_of_unknown asks ((Registry.get?_eq_none_iff _ q.handle).2 beyond)
  · have there : ((m.reset p).afterAll later).registry.get? q.handle ≠ none := fun unknown =>
      Nat.not_le_of_lt inside ((Registry.get?_eq_none_iff _ q.handle).1 unknown)
    obtain ⟨f, known⟩ := Option.ne_none_iff_exists'.1 there
    exact ⟨f, known, runs_of_first_known asks known⟩

theorem resolve_after_reset_house :
    (resolve Machine.host Sample.house Machine.boot.reset).1 = .error (.danglingHandle ⟨0⟩) ∧
      Machine.boot.reset.runs Sample.house = [] := by
  have asks : Sample.house.questions = ⟨⟨0⟩, _⟩ :: _ := rfl
  exact (resolve_after_reset Machine.boot .plain [] asks).2.1
    (Nat.le_of_eq (reset_registry_size _ .plain))

/-- A declaration is made, the machine is reset, and another script is evaluated on it. The
declaration is then resolved without a complaint, by a function that the other script has
registered: its only channel is taken away, though its own predicate admits everything. -/
theorem stale_handle_runs_later_function : ∃ d m d' m' g run,
    evaluateEntry Sample.newsScripts Machine.boot = .ok d m ∧
    evaluateEntry Sample.chatScripts m.reset = .ok d' m' ∧
    m'.runs d = [run] ∧ (resolve Machine.host d m').1 = .ok g ∧ g.channels = [] := by
  have computed : Sample.succeeds (fun d m => Sample.succeeds (fun _ m' =>
      (m'.runs d).length == 1 && (resolve Machine.host d m').1.toOption.any (·.channels.isEmpty))
      (evaluateEntry Sample.chatScripts m.reset))
      (evaluateEntry Sample.newsScripts Machine.boot) = true := by
    decide +kernel
  obtain ⟨d, m, evaluated, computed⟩ := Sample.ok_of_succeeds computed
  obtain ⟨d', m', evaluated', computed⟩ := Sample.ok_of_succeeds computed
  obtain ⟨one, resolves⟩ := Bool.and_eq_true_iff.1 computed
  obtain ⟨run, ran⟩ := List.length_eq_one_iff.1 (beq_iff_eq.1 one)
  obtain ⟨g, resolved, empty⟩ := Sample.ok_of_any resolves
  exact ⟨d, m, d', m', g, run, evaluated, evaluated', ran, resolved, List.isEmpty_iff.1 empty⟩

end GuildPlan.Script
