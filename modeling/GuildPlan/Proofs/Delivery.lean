import GuildPlan.Program
import GuildPlan.Proofs.Grammar
import GuildPlan.Proofs.Sample
import GuildPlan.Proofs.Writing

/-
  All or nothing. A run of the program fails at one of four places: where its environment
  cannot be set up, where no script is named, in a stage of the compilation, and where the
  file for the artifact cannot be written. Then nothing is printed and the tree is as it was.
  A run that fails at none of them delivers the whole artifact, either to the file that the
  environment names or, if it names none, to the standard output. This is so on every platform,
  however its files are read as scripts and whatever its library does.
-/
namespace GuildPlan
open Script

/-! ## Environments -/

namespace Environment
variable {env : Environment} {name path s : String}

theorem text?_eq_some : env.text? name = some s ↔ env.get? name = some s.toUTF8 := by
  unfold text?
  rw [Option.bind_eq_some_iff]
  constructor
  · rintro ⟨bytes, found, read⟩
    rw [found, ofUtf8?_eq_some read]
  · exact fun found => ⟨s.toUTF8, found, ofUtf8?_toUTF8 s⟩

/-- A file is named for the artifact, in text that is not blank. -/
structure SendsTo (env : Environment) (path : String) : Prop where
  set : env.get? Settings.outputVariable = some path.toUTF8
  solid : Text.Solid path

theorem output_eq_some :
    (env.text? Settings.outputVariable).filter (!Text.allBlank ·) = some path ↔
      env.SendsTo path := by
  rw [Option.filter_eq_some_iff, text?_eq_some, Bool.not_eq_true', Text.allBlank_eq_false]
  exact ⟨fun ⟨set, solid⟩ => ⟨set, solid⟩, fun sends => ⟨sends.set, sends.solid⟩⟩

end Environment

theorem Ending.exitCode_eq_zero {e : Ending} : e.exitCode = 0 ↔ e = .success := by
  cases e <;> decide

/-! ## Where a run fails -/

/-- A stage in which a compilation fails: the scan of the tree, the evaluation of the script
with all its declarations, or the pass over the predicates. -/
inductive Miscompiles (p : Platform) (tree : Tree Source) (entry : String) (m : Machine) : Prop
  | scan {e : Failure} : MountTable.scan tree entry = .error e → Miscompiles p tree entry m
  | evaluation {scripts : MountTable Source} {e : Failure} {m' : Machine} :
    MountTable.scan tree entry = .ok scripts → evaluateEntry scripts (m.reset p) = .error e m' →
    Miscompiles p tree entry m
  | resolution {scripts : MountTable Source} {d : Declaration} {e : Failure} {m' : Machine} :
    MountTable.scan tree entry = .ok scripts → evaluateEntry scripts (m.reset p) = .ok d m' →
    (resolve Machine.host d m').1 = .error e → Miscompiles p tree entry m

theorem miscompiles_iff {p : Platform} {tree : Tree Source} {entry : String} {m : Machine} :
    Miscompiles p tree entry m ↔ ∃ e, (compile tree entry m p).1 = .error e := by
  unfold compile
  constructor
  · intro fails
    cases fails with
    | @scan e scanned => exact ⟨e, by simp only [scanned]⟩
    | @evaluation _ e _ scanned evaluated => exact ⟨e, by simp only [scanned, evaluated]⟩
    | @resolution _ _ e _ scanned evaluated resolved =>
      exact ⟨e, by simp only [scanned, evaluated, resolved]⟩
  · rintro ⟨e, failed⟩
    split at failed
    · next scanned => exact .scan scanned
    · next scanned =>
      split at failed
      · next evaluated => exact .evaluation scanned evaluated
      · next evaluated => exact .resolution scanned evaluated failed

namespace Program
variable {p : Platform} {env env' : Environment} {tree : Tree ByteArray} {path script : String}
  {g : Guild}

/-- The environment can be set up, and it names this script. -/
structure Starts (env : Environment) (tree : Tree ByteArray) (env' : Environment)
    (script : String) : Prop where
  ready : environment? env tree = some env'
  named : env'.get? Settings.scriptVariable = some script.toUTF8

/-- The environment can be set up, and the script that it names compiles to this guild. -/
def Compiles (p : Platform) (env : Environment) (tree : Tree ByteArray) (env' : Environment)
    (g : Guild) : Prop :=
  ∃ script, Starts env tree env' script ∧
    (compile (tree.map p.read) script (.boot p) p).1 = .ok g

/-- A place where a run fails. -/
inductive Fault (p : Platform) (env : Environment) (tree : Tree ByteArray) : Prop
  | environment : environment? env tree = none → Fault p env tree
  | unnamed {env' : Environment} : environment? env tree = some env' →
    (∀ script, ¬Starts env tree env' script) → Fault p env tree
  | compilation {env' : Environment} {script : String} : Starts env tree env' script →
    Miscompiles p (tree.map p.read) script (.boot p) → Fault p env tree
  | writing {env' : Environment} {g : Guild} {path : String} : Compiles p env tree env' g →
    env'.SendsTo path → ¬tree.Takes path → Fault p env tree

/-- A run that starts goes as the compilation does. -/
theorem run_of_starts (starts : Starts env tree env' script) : ∃ settings : Settings,
    settings.output = (env'.text? Settings.outputVariable).filter (!Text.allBlank ·) ∧
    ∀ result, (compile (tree.map p.read) script (.boot p) p).1 = result →
      run env tree p =
        match result with
        | .error _ => .without .failure tree
        | .ok g => (settings.delivery g.text).outcome tree := by
  refine ⟨⟨script, (env'.text? Settings.outputVariable).filter (!Text.allBlank ·)⟩, rfl, ?_⟩
  intro result compiled
  simp only [run, starts.ready, produce, Settings.ofEnvironment,
    Environment.text?_eq_some.2 starts.named, compiled]
  cases result <;> rfl

theorem run_of_sendsTo (compiled : Compiles p env tree env' g) (sends : env'.SendsTo path) :
    run env tree p = (Delivery.write path g.text).outcome tree := by
  obtain ⟨script, starts, made⟩ := compiled
  obtain ⟨settings, output, ran⟩ := run_of_starts starts
  rw [ran _ made]
  simp only [Settings.delivery, output, Environment.output_eq_some.2 sends]

theorem run_of_not_sendsTo (compiled : Compiles p env tree env' g)
    (unsent : ∀ path, ¬env'.SendsTo path) :
    run env tree p = ⟨.success, g.text ++ "\n", tree⟩ := by
  obtain ⟨script, starts, made⟩ := compiled
  obtain ⟨settings, output, ran⟩ := run_of_starts starts
  have unnamed : settings.output = none := Option.eq_none_iff_forall_ne_some.2 fun path named =>
    unsent path (Environment.output_eq_some.1 (output.symm.trans named))
  rw [ran _ made]
  simp only [Settings.delivery, unnamed, Delivery.outcome]

/-- A run with a fault delivers nothing. -/
theorem Fault.run (fault : Fault p env tree) :
    ∃ ending, ending ≠ .success ∧ run env tree p = .without ending tree := by
  cases fault with
  | environment unready =>
    exact ⟨.broken, nofun, by simp only [Program.run, unready]⟩
  | @unnamed env' ready unnamed =>
    have missing : env'.text? Settings.scriptVariable = none :=
      Option.eq_none_iff_forall_ne_some.2 fun script named =>
        unnamed script ⟨ready, Environment.text?_eq_some.1 named⟩
    exact ⟨.failure, nofun, by
      simp only [Program.run, ready, produce, Settings.ofEnvironment, missing]⟩
  | compilation starts failed =>
    obtain ⟨e, failed⟩ := miscompiles_iff.1 failed
    obtain ⟨settings, -, ran⟩ := run_of_starts starts
    exact ⟨.failure, nofun, ran _ failed⟩
  | writing compiled sends refuses =>
    refine ⟨.failure, nofun, ?_⟩
    rw [run_of_sendsTo compiled sends, Delivery.outcome, Tree.write?_of_not_takes refuses]

/-- A run either comes to a fault or has a guild to deliver, and a place for it. -/
theorem fault_or (p : Platform) (env : Environment) (tree : Tree ByteArray) : Fault p env tree ∨
    ∃ env' g, Compiles p env tree env' g ∧ ∀ path, env'.SendsTo path → tree.Takes path := by
  cases ready : environment? env tree with
  | none => exact .inl (.environment ready)
  | some env' =>
    by_cases starts : ∃ script, Starts env tree env' script
    · obtain ⟨script, starts⟩ := starts
      cases made : (compile (tree.map p.read) script (.boot p) p).1 with
      | error e => exact .inl (.compilation starts (miscompiles_iff.2 ⟨e, made⟩))
      | ok g =>
        have compiled : Compiles p env tree env' g := ⟨script, starts, made⟩
        by_cases takes : ∀ path, env'.SendsTo path → tree.Takes path
        · exact .inr ⟨env', g, compiled, takes⟩
        · push Not at takes
          obtain ⟨path, sends, refuses⟩ := takes
          exact .inl (.writing compiled sends refuses)
    · exact .inl (.unnamed ready (not_exists.1 starts))

/-! ## All or nothing -/

/-- What a run delivers that made this guild: the whole artifact, to one place only. -/
inductive Delivers (tree : Tree ByteArray) (env' : Environment) (g : Guild) (o : Outcome) : Prop
  | file {path : String} : env'.SendsTo path → o.output = "" →
    tree.Receives o.tree path g.text.toUTF8 → Delivers tree env' g o
  | print : (∀ path, ¬env'.SendsTo path) → o.output = g.text ++ "\n" → o.tree = tree →
    Delivers tree env' g o

/-- A run fails exactly at a fault, and then it prints nothing and leaves the tree as it was.
Otherwise it succeeds, and it delivers the whole artifact to one place. -/
theorem run_all_or_nothing (p : Platform) (env : Environment) (tree : Tree ByteArray) :
    (Fault p env tree ∧ (run env tree p).ending.exitCode ≠ 0 ∧ (run env tree p).output = "" ∧
      (run env tree p).tree = tree) ∨
    (¬Fault p env tree ∧ (run env tree p).ending.exitCode = 0 ∧
      ∃ env' g, Compiles p env tree env' g ∧ Delivers tree env' g (run env tree p)) := by
  rcases fault_or p env tree with fault | ⟨env', g, compiled, takes⟩
  · obtain ⟨ending, failed, ran⟩ := fault.run
    rw [ran]
    exact .inl ⟨fault, mt Ending.exitCode_eq_zero.1 failed, rfl, rfl⟩
  · have delivered : (run env tree p).ending = .success ∧ Delivers tree env' g (run env tree p) := by
      by_cases sends : ∃ path, env'.SendsTo path
      · obtain ⟨path, sends⟩ := sends
        obtain ⟨tree', written, receives⟩ :=
          Tree.write?_of_takes (takes path sends) g.text.toUTF8
        have ran : run env tree p = .without .success tree' := by
          rw [run_of_sendsTo compiled sends, Delivery.outcome, written]
        rw [ran]
        exact ⟨rfl, .file sends rfl receives⟩
      · have unsent : ∀ path, ¬env'.SendsTo path := fun path named => sends ⟨path, named⟩
        rw [run_of_not_sendsTo compiled unsent]
        exact ⟨rfl, .print unsent rfl rfl⟩
    refine .inr ⟨fun fault => ?_, Ending.exitCode_eq_zero.2 delivered.1, env', g, compiled,
      delivered.2⟩
    obtain ⟨ending, failed, ran⟩ := fault.run
    exact failed ((congrArg Outcome.ending ran).symm.trans delivered.1)

/-- The text of a script for a guild in which nothing is declared. -/
def bareText : String := "return \x7bid = [[bare]], setup = function(ctx) end\x7d\n"

/-- What that text says. -/
def bareBlock : Block :=
  [.answer [.table [] [(.str "id".toUTF8, .str "bare".toUTF8),
    (.str "setup".toUTF8, .function ["ctx"] [])]]]

/-- A platform that reads that text, and nothing else. -/
def barePlatform : Platform where
  read body := if body = bareText.toUTF8 then some bareBlock else none

/-- A tree with that script in its working directory. -/
def bareTree : Tree ByteArray :=
  ⟨[(["srv"], .directory), (["srv", "main.lua"], .file bareText.toUTF8)], ["srv"]⟩

/-- An environment that names a file for the artifact by a byte that no text has. -/
def strayOutput : Environment :=
  ((∅ : Environment).insert Settings.scriptVariable "main.lua".toUTF8).insert
    Settings.outputVariable ⟨#[255]⟩

/-- A file that is named by bytes which are no text, so not blank either, counts as none: the
artifact is printed, and no file is written. -/
theorem printed_for_stray_output :
    strayOutput.get? Settings.outputVariable = some ⟨#[255]⟩ ∧
    (∀ s : String, ⟨#[255]⟩ ≠ s.toUTF8) ∧
    ∃ g, Compiles barePlatform strayOutput bareTree strayOutput g ∧
      run strayOutput bareTree barePlatform = ⟨.success, g.text ++ "\n", bareTree⟩ := by
  have set : strayOutput.get? Settings.outputVariable = some ⟨#[255]⟩ := by decide +kernel
  have stray (s : String) : ⟨#[255]⟩ ≠ s.toUTF8 := by
    have unread : Text.ofUtf8? ⟨#[255]⟩ = none := by decide +kernel
    intro same
    rw [same, ofUtf8?_toUTF8] at unread
    cases unread
  obtain ⟨g, made⟩ : ∃ g, (compile (bareTree.map barePlatform.read) "main.lua"
      (.boot barePlatform) barePlatform).1 = .ok g := Sample.ok_of_isOk (by decide +kernel)
  have compiled : Compiles barePlatform strayOutput bareTree strayOutput g :=
    ⟨"main.lua", ⟨by decide +kernel, by decide +kernel⟩, made⟩
  refine ⟨set, stray, g, compiled, run_of_not_sendsTo compiled fun path sends => ?_⟩
  exact stray path (Option.some.inj (set.symm.trans sends.set))

end Program
end GuildPlan
