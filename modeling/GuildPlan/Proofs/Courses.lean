import GuildPlan.Proofs.Loading
import GuildPlan.Proofs.Runs

/-
  The course of an evaluation, from one moment to the next: through the run of the entry script,
  the two fields of what it returns, the setup function and the predicates. What the loader goes
  by stays in its place the whole time, unless a script assigns to it or sets a metatable there.
  So a module that has been provided stays as it is, from wherever it is asked for, and a module
  that has raised something is as if it had never run, unless it has been stored meanwhile.
-/
namespace GuildPlan
namespace Script

/-! ## The beginning -/

/-- A moment of an evaluation: between two runs, or in the middle of one. -/
inductive Moment
  | idle (m : Machine)
  | running (s : State) (m : Machine)

namespace Moment

def machine : Moment → Machine
  | idle m | running _ m => m

/-- What may come next. Between runs the host runs a script, asks for a field or calls a function,
opens and closes contexts, shows something to a script, and logs. Before a script goes on, the
platform may arrange tables. -/
inductive Next : Moment → Moment → Prop
  | step {s s' : State} {m m' : Machine} :
    Script.step s m = (.going s', m') → Next (running s m) (running s' m'.stirred)
  | ends {s : State} {m m' : Machine} {outcome : Except Value (List Value)} :
    Script.step s m = (.ended outcome, m') → Next (running s m) (idle m')
  /-- A run that takes too many steps is given up. -/
  | stops {s : State} {m : Machine} : Next (running s m) (idle m)
  | chunk {block : Block} {m : Machine} : Next (idle m) (running (.ofBlock block) m.stirred)
  | field {v : Value} {name : String} {s : State} {m m' : Machine} :
    askField { hostDepth with runs := 0 } v name [] m = (s, m') →
    Next (idle m) (running s m'.stirred)
  | call {f : Value} {args : List Value} {m : Machine} :
    Next (idle m) (running (.ofCall f args) m.stirred)
  | opens {r : ContextRef} {m m' : Machine} : newContext m = (r, m') → Next (idle m) (idle m')
  | offers {r : ContextRef} {ctx : Value} {m m' : Machine} :
    capabilityTable (some r) [] m = (ctx, m') → Next (idle m) (idle m')
  | closes {r : ContextRef} {m : Machine} : Next (idle m) (idle (setContext r none m).2)
  | shows {v : Json} {shown : Value} {m m' : Machine} :
    enter v m = (shown, m') → Next (idle m) (idle m')
  | notes {line : LogLine} {m : Machine} : Next (idle m) (idle (m.noted line))

/-- Whether what comes next does not tamper with what the loader goes by. -/
def honest (c : Cache) : Moment → Bool
  | idle _ => true
  | running s m => !c.tampers m s

/-- Whether a module of some name has returned and is stored next. -/
def stores (name : String) : Moment → Bool
  | idle _ => false
  | running s _ => s.stores name

end Moment

/-- From one moment to a later one, with nothing on the way that tampers with what the loader goes
by. -/
def Cache.Course (c : Cache) : Moment → Moment → Prop :=
  Relation.ReflTransGen fun a b => a.honest c = true ∧ a.Next b

/-- Such a course on which no module of some name is stored. -/
def Cache.CourseWithout (c : Cache) (name : String) : Moment → Moment → Prop :=
  Relation.ReflTransGen fun a b => a.stores name = false ∧ a.honest c = true ∧ a.Next b

theorem Cache.CourseWithout.course {c : Cache} {name : String} {a b : Moment}
    (h : c.CourseWithout name a b) : c.Course a b :=
  Relation.ReflTransGen.mono (fun _ _ next => next.2) _ _ h

namespace Cache.Course
variable {c : Cache} {a : Moment} {m m' : Machine}

/-- Between runs there is nobody who could tamper with anything. -/
theorem host (course : c.Course a (.idle m)) {b : Moment} (next : (Moment.idle m).Next b) :
    c.Course a b := course.tail ⟨rfl, next⟩

theorem trans {b d : Moment} (first : c.Course a b) (second : c.Course b d) : c.Course a d :=
  Relation.ReflTransGen.trans first second

end Cache.Course
end Script

/-! ## The runs of a compilation -/

open Script

namespace Job
variable {job : Job} {stage : Stage} {s : State} {c : Cache} {a : Moment} {m t start : Machine}

/-- A job none of whose runs tampers with what the loader goes by. -/
def Honest (job : Job) (c : Cache) : Prop :=
  ∀ stage n s m, job.Runs stage n s m → c.tampers m s = false

theorem Runs.honest (honest : job.Honest c) {n : Nat} (runs : job.Runs stage n s m) :
    (Moment.running s m).honest c = true := by
  rw [Moment.honest, honest stage n s m runs]
  rfl

theorem Runs.course (honest : job.Honest c) {n : Nat} (runs : job.Runs stage n s m) :
    c.Course (.running s m) (.idle (runFor n s m).2) := by
  induction n generalizing s m with
  | zero => exact .single ⟨runs.honest honest, .stops⟩
  | succ n ih =>
    unfold runFor
    cases stepped : Script.step s m with
    | mk status m' =>
      cases status with
      | going s' => exact .head ⟨runs.honest honest, .step stepped⟩ (ih (runs.step stepped))
      | ended outcome => exact .single ⟨runs.honest honest, .ends stepped⟩

theorem Begins.course (honest : job.Honest c) (begins : job.Begins stage s m)
    {outcome : Except Value (List Value)} (ended : run s m = (outcome, t)) :
    c.Course (.running s m.stirred) (.idle t) := by
  have course := (Runs.begins begins).course honest
  rwa [show runFor stepLimit s m.stirred = _ from ended] at course

/-- A field is read in a run of the job. -/
theorem fieldRead_course (honest : job.Honest c) {r : TableRef} {name : String}
    (begins : ∀ s t', askField { hostDepth with runs := 0 } (.table r) name [] t = (s, t') →
      job.Begins .field s t')
    (course : c.Course a (.idle t)) {v : Value} {u : Machine}
    (read : readField (.table r) name t = .ok (.ok v) u) : c.Course a (.idle u) := by
  rw [readField_eq] at read
  cases asked : askField { hostDepth with runs := 0 } (.table r) name [] t with
  | mk s t' =>
    cases ended : run s t' with
    | mk outcome u' =>
      have after := (course.host (.field asked)).trans ((begins s t' asked).course honest ended)
      simp only [asked, ended] at read
      cases outcome <;> cases read
      exact after

variable {scripts : MountTable Source}

theorem Begins.chunk_reached (scanned : MountTable.scan job.tree job.entry = .ok scripts)
    (installed : installLoader scripts job.ready = .ok () start)
    (begins : job.Begins .chunk s m) : c.Course (.idle start) (.running s m.stirred) := by
  cases begins with
  | chunk scanned' _ installed' =>
    cases scanned.symm.trans scanned'
    cases installed.symm.trans installed'
    exact .single ⟨rfl, .chunk⟩

section
variable (honest : job.Honest c) (scanned : MountTable.scan job.tree job.entry = .ok scripts)
  (installed : installLoader scripts job.ready = .ok () start)
include honest scanned installed

theorem Begins.chunk_ends_reached (begins : job.Begins .chunk s m)
    {outcome : Except Value (List Value)} (ended : run s m = (outcome, t)) :
    c.Course (.idle start) (.idle t) :=
  (begins.chunk_reached scanned installed).trans (begins.course honest ended)

theorem Begins.setup_reached (begins : job.Begins .setup s m) :
    c.Course (.idle start) (.running s m.stirred) := by
  cases begins with
  | setup chunk ended contract opened given =>
    have ends := chunk.chunk_ends_reached honest scanned installed ended
    rcases readContract_ends contract with ⟨why, _, failed⟩ | ⟨_, _, _, _, _, _, table, first, text,
      solid, second, same⟩
    · cases failed
    · cases same
      rw [table] at first second
      have read := fieldRead_course honest (fun _ _ => .idField chunk ended table) ends first
      have read' := fieldRead_course honest
        (fun _ _ => .setupField chunk ended table first text solid) read second
      exact ((read'.host (.opens opened)).host (.offers given)).host .call

theorem evaluated_reached {d : Declaration}
    (evaluated : evaluateEntry scripts job.ready = .ok d t) :
    c.Course (.idle start) (.idle t) := by
  cases evaluated ▸ evaluateEntry_evaluates scanned with
  | declared setup ended =>
    have ends := (setup.setup_reached honest scanned installed).trans (setup.course honest ended)
    exact (ends.host .closes).host .notes

/-- A machine at which a question is put is one between two runs. -/
theorem inquiry_reached {d : Declaration}
    (evaluated : evaluateEntry scripts job.ready = .ok d t) :
    ∀ i ∈ Machine.host.inquiries d t, c.Course (.idle start) (.idle i.state) := by
  refine inquiries_hold (I := fun t => c.Course (.idle start) (.idle t))
    (evaluated_reached honest scanned installed evaluated)
    (fun line t course => course.host .notes) fun i asked course => ?_
  cases known : i.state.registry.get? i.question.handle with
  | none =>
    rw [reply_of_unknown known]
    exact course
  | some f =>
    cases shown : enter i.question.channel.toScript i.state with
    | mk channel u =>
      cases ended : run (.ofCall (.function f) [channel]) u with
      | mk outcome u' =>
        have begins := Begins.predicate scanned evaluated asked known shown
        have replied := ((course.host (.shows shown)).host .call).trans (begins.course honest ended)
        cases outcome with
        | ok vs =>
          rw [reply_of_ok known shown ended]
          exact replied
        | error v =>
          rw [reply_of_raised known shown ended]
          exact replied

theorem Begins.reached (begins : job.Begins stage s m) :
    c.Course (.idle start) (.running s m.stirred) := by
  cases begins with
  | chunk scanned' readable installed' =>
    exact Begins.chunk_reached scanned installed (.chunk scanned' readable installed')
  | idField chunk ended table asked =>
    exact (chunk.chunk_ends_reached honest scanned installed ended).host (.field asked)
  | setupField chunk ended table read text solid asked =>
    have ends := chunk.chunk_ends_reached honest scanned installed ended
    exact (fieldRead_course honest (fun _ _ => .idField chunk ended table) ends read).host
      (.field asked)
  | setup chunk ended contract opened given =>
    exact Begins.setup_reached honest scanned installed (.setup chunk ended contract opened given)
  | predicate scanned' evaluated asked known shown =>
    cases scanned.symm.trans scanned'
    have course := inquiry_reached honest scanned installed evaluated _ asked
    exact (course.host (.shows shown)).host .call

/-- Whatever a run of a compilation comes to is a moment of the course of its evaluation. -/
theorem Runs.reached {n : Nat} (runs : job.Runs stage n s m) :
    c.Course (.idle start) (.running s m) := by
  induction runs with
  | begins begins => exact begins.reached honest scanned installed
  | step runs stepped ih =>
    exact ih.trans (.single ⟨Runs.honest honest runs, .step stepped⟩)

end
end Job
end GuildPlan
