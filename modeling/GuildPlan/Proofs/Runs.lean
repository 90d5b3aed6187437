import GuildPlan.Proofs.Independence
import GuildPlan.Proofs.Inquiries

/-
  The runs of a compilation. The entry script runs first, then whatever answers for the two
  fields of the value that it returns, the setup function, and a predicate for each question of
  the resolution. What no step of these runs breaks holds of every state that one of them comes
  to. A compilation fails for a refused declaration if and only if one of these runs does.
-/
namespace GuildPlan
open Script

/-- A script to be compiled: its tree, its path there, the machine to run it on, and the
platform. -/
structure Job where
  tree : Tree Source
  entry : String
  machine : Machine
  platform : Platform := .plain

namespace Job

/-- The machine as the job finds it. -/
def ready (job : Job) : Machine := job.machine.reset job.platform

/-- What comes of a job. -/
def answer (job : Job) : Except Failure Guild :=
  (compile job.tree job.entry job.machine job.platform).1

end Job

namespace Script

/-- What a run of a compilation is for. -/
inductive Stage
  | chunk
  | field
  | setup
  | predicate

/-- Whether the compilation comes to what is raised there in the end. A field that cannot be
read just makes the returned value a wrong one. -/
def Stage.tells : Stage → Bool
  | .field => false
  | .chunk | .setup | .predicate => true

/-! ## What the host makes of a run -/

theorem completed_eq (s : State) (m : Machine) : completed s m = match run s m with
    | (.ok vs, t) => .ok vs t
    | (.error v, t) => .error (t.failure v) t := by
  unfold completed
  rw [Hosted.bind_of_ok (hosted_ok _ _)]
  rcases run s m with ⟨v | vs, t⟩ <;> rfl

theorem completed_of_ok {s : State} {m t : Machine} {vs : List Value}
    (ended : run s m = (.ok vs, t)) : completed s m = .ok vs t := by
  rw [completed_eq, ended]

theorem completed_of_raised {s : State} {m t : Machine} {v : Value}
    (raised : run s m = (.error v, t)) : completed s m = .error (t.failure v) t := by
  rw [completed_eq, raised]

theorem readField_eq (v : Value) (name : String) (m : Machine) : readField v name m =
    match askField { hostDepth with runs := 0 } v name [] m with
    | (s, t) => match run s t with
      | (.ok vs, t) => .ok (.ok (first vs)) t
      | (.error v, t) => .ok (.error (t.words v)) t := by
  unfold readField
  rw [Hosted.bind_of_ok (hosted_ok _ _)]
  rcases askField { hostDepth with runs := 0 } v name [] m with ⟨s, t⟩
  dsimp only
  rw [Hosted.bind_of_ok (hosted_ok _ _)]
  rcases run s t with ⟨v | vs, u⟩ <;> rfl

theorem runSetup_of_run {f ctx : Value} {m opened given t : Machine} {r : ContextRef}
    (opens : newContext m = (r, opened)) (gives : capabilityTable (some r) [] opened = (ctx, given))
    {outcome : Except Value (List Value)} (ended : run (.ofCall f [ctx]) given = (outcome, t)) :
    runSetup f m = match outcome with
      | .ok _ => .ok ((t.context r).getD {}) (setContext r none t).2
      | .error v => .error (t.failure v) (setContext r none t).2 := by
  unfold runSetup
  rw [Hosted.bind_of_ok (hosted_ok _ _), opens, Hosted.bind_of_ok (hosted_ok _ _), gives]
  have ran := hosted_ok (run (.ofCall f [ctx])) given
  rw [ended] at ran
  cases outcome <;> exact Hosted.bind_of_ok ran _

theorem readField_ends (v : Value) (name : String) (m : Machine) :
    ∃ outcome t, readField v name m = .ok outcome t := by
  rw [readField_eq]
  rcases askField { hostDepth with runs := 0 } v name [] m with ⟨s, t⟩
  dsimp only
  rcases run s t with ⟨v | vs, u⟩ <;> exact ⟨_, _, rfl⟩

/-- A contract is a table both fields of which have been read, in turn; what is none has a wrong
shape. -/
theorem readContract_ends {returned : Value} {m : Machine}
    {result : EStateM.Result Failure Machine (String × Value)}
    (ends : readContract returned m = result) :
    (∃ why t, result = .error (.shape why) t) ∨
    ∃ r bytes id g u t, returned = .table r ∧
      readField returned "id" m = .ok (.ok (.str bytes)) u ∧ Text.ofUtf8? bytes = some id ∧
      Text.allBlank id = false ∧ readField returned "setup" u = .ok (.ok (.function g)) t ∧
      result = .ok (id, .function g) t := by
  cases returned with
  | table r =>
    obtain ⟨idField, u, first⟩ := readField_ends (.table r) "id" m
    rw [show readContract (.table r) m = _ from Hosted.bind_of_ok first _] at ends
    rcases idField with f | v
    · exact .inl ⟨_, _, ends.symm⟩
    · cases v with
      | str bytes =>
        dsimp only at ends
        cases text : Text.ofUtf8? bytes with
        | none =>
          rw [text] at ends
          exact .inl ⟨_, _, ends.symm⟩
        | some id =>
          rw [text] at ends
          change (if Text.allBlank id = true then _ else _ : Hosted _) u = _ at ends
          split at ends
          · exact .inl ⟨_, _, ends.symm⟩
          · next solid =>
            obtain ⟨setupField, t, second⟩ := readField_ends (.table r) "setup" u
            rw [Hosted.bind_of_ok second] at ends
            rcases setupField with f | v
            · exact .inl ⟨_, _, ends.symm⟩
            · cases v with
              | function g =>
                exact .inr ⟨r, bytes, id, g, u, t, rfl, first, text, Bool.eq_false_iff.2 solid,
                  second, ends.symm⟩
              | _ => exact .inl ⟨_, _, ends.symm⟩
      | _ => exact .inl ⟨_, _, ends.symm⟩
  | _ => exact .inl ⟨_, _, ends.symm⟩

theorem reply_of_unknown {i : Inquiry Machine}
    (unknown : i.state.registry.get? i.question.handle = none) :
    Machine.host.reply i = (.error (.danglingHandle i.question.handle), i.state) :=
  host_test_of_error (testPredicate_of_unknown unknown _)

section
variable {i : Inquiry Machine} {f : FunctionRef} {channel : Value} {m t : Machine}

/-- A known question is replied to by a run of its function. -/
theorem reply_of_ok (known : i.state.registry.get? i.question.handle = some f)
    (shown : enter i.question.channel.toScript i.state = (channel, m)) {vs : List Value}
    (ended : run (.ofCall (.function f) [channel]) m = (.ok vs, t)) :
    Machine.host.reply i = (.ok (first vs).truthy, t) := by
  refine host_test_of_ok ?_
  rw [testPredicate_of_known known]
  unfold askFunction
  rw [Hosted.bind_of_ok (hosted_ok _ _), shown]
  exact Hosted.bind_of_ok (completed_of_ok ended) _

theorem reply_of_raised (known : i.state.registry.get? i.question.handle = some f)
    (shown : enter i.question.channel.toScript i.state = (channel, m)) {v : Value}
    (raised : run (.ofCall (.function f) [channel]) m = (.error v, t)) :
    Machine.host.reply i = (.error (t.failure v), t) := by
  refine host_test_of_error ?_
  rw [testPredicate_of_known known]
  unfold askFunction
  rw [Hosted.bind_of_ok (hosted_ok _ _), shown]
  exact Hosted.bind_of_error (completed_of_raised raised) _

end

/-! ## First states -/

section
variable {P : Value → Prop} {m t : Machine}

/-- Nothing has been refused on a machine that has been reset. -/
theorem ready_holds (plain : Admits P) (job : Job) : job.ready.Holds P := by
  unfold Job.ready
  rw [reset_eq_preceded]
  exact (boot_holds plain job.platform).preceded job.machine.log

theorem installLoader_holds (plain : Admits P) {scripts : MountTable Source} (holds : m.Holds P)
    (installed : installLoader scripts m = .ok () t) : t.Holds P := by
  obtain ⟨library, u, looked, installed⟩ := Hosted.bind_eq_ok installed
  have kept : u.Holds P :=
    (EStateM.Result.ok.inj looked).2 ▸ (global_handles plain libraryName holds).2.1
  cases library with
  | table r =>
    cases installed
    exact (loader_handles plain scripts r kept).2.1
  | _ => cases installed

theorem installLoader_error {scripts : MountTable Source} {e : Failure}
    (failed : installLoader scripts m = .error e t) :
    ∃ message, e = .unpreparedInterpreter message := by
  rcases Hosted.bind_eq_error failed with failed | ⟨library, u, _, failed⟩
  · cases failed
  · cases library with
    | table r => cases failed
    | _ =>
      cases failed
      exact ⟨_, rfl⟩

theorem State.holds_ofBlock (block : Block) : (State.ofBlock block).Holds P :=
  ⟨trivial, by simp [State.ofBlock, Stack.Holds, Frame.Holds, hostFrame]⟩

theorem State.holds_ofCall {f : Value} {args : List Value} (there : P f)
    (given : ∀ v ∈ args, P v) : (State.ofCall f args).Holds P :=
  ⟨⟨there, given⟩, List.forall_mem_singleton.2 trivial⟩

end
end Script

/-! ## The runs of a job -/

/-- What a job runs from its beginning, and on which machine. -/
inductive Job.Begins (job : Job) : Stage → State → Machine → Prop
  | chunk {scripts : MountTable Source} {block : Block} {m : Machine} :
    MountTable.scan job.tree job.entry = .ok scripts →
    scripts.entrySource? = some (some block) →
    installLoader scripts job.ready = .ok () m →
    Begins job .chunk (.ofBlock block) m
  | idField {s s' : State} {m t t' : Machine} {returned : List Value} {r : TableRef} :
    Begins job .chunk s m → run s m = (.ok returned, t) → first returned = .table r →
    askField { hostDepth with runs := 0 } (.table r) "id" [] t = (s', t') →
    Begins job .field s' t'
  | setupField {s s' : State} {m t u u' : Machine} {returned : List Value} {r : TableRef}
    {bytes : ByteArray} {id : String} :
    Begins job .chunk s m → run s m = (.ok returned, t) → first returned = .table r →
    readField (.table r) "id" t = .ok (.ok (.str bytes)) u →
    Text.ofUtf8? bytes = some id → Text.allBlank id = false →
    askField { hostDepth with runs := 0 } (.table r) "setup" [] u = (s', u') →
    Begins job .field s' u'
  | setup {s : State} {m t u opened given : Machine} {returned : List Value} {id : String}
    {f ctx : Value} {r : ContextRef} :
    Begins job .chunk s m → run s m = (.ok returned, t) →
    readContract (first returned) t = .ok (id, f) u →
    newContext u = (r, opened) → capabilityTable (some r) [] opened = (ctx, given) →
    Begins job .setup (.ofCall f [ctx]) given
  | predicate {scripts : MountTable Source} {d : Declaration} {m shown : Machine}
    {i : Inquiry Machine} {f : FunctionRef} {channel : Value} :
    MountTable.scan job.tree job.entry = .ok scripts →
    evaluateEntry scripts job.ready = .ok d m →
    i ∈ Machine.host.inquiries d m → i.state.registry.get? i.question.handle = some f →
    enter i.question.channel.toScript i.state = (channel, shown) →
    Begins job .predicate (.ofCall (.function f) [channel]) shown

/-- Where the runs of a job come to, with so many steps left. -/
inductive Job.Runs (job : Job) (stage : Stage) : Nat → State → Machine → Prop
  | begins {s : State} {m : Machine} : job.Begins stage s m → Runs job stage stepLimit s m.stirred
  | step {n : Nat} {s s' : State} {m m' : Machine} :
    Runs job stage (n + 1) s m → step s m = (.going s', m') → Runs job stage n s' m'.stirred

/-- What an evaluation comes to: it fails as a run does, or for another reason than a refused
declaration, or it declares what a setup has declared, which is closed then. -/
inductive Job.Evaluates (job : Job) : EStateM.Result Failure Machine Declaration → Prop
  | other {e : Failure} {t : Machine} : (∀ i, e ≠ .invalid i) → Evaluates job (.error e t)
  | raised {stage : Stage} {s : State} {m t t' : Machine} {v : Value} {e : Failure} :
    job.Begins stage s m → stage.tells = true → run s m = (.error v, t) →
    t.failure v = e → Evaluates job (.error e t')
  | declared {s : State} {m t : Machine} {vs : List Value} {r : ContextRef} {d : Declaration} :
    job.Begins .setup s m → run s m = (.ok vs, t) →
    Evaluates job (.ok d ((setContext r none t).2.noted (declared d)))

/-- What is left of an evaluation when its contract has been read. -/
theorem Job.Begins.setup_evaluates {job : Job} {s : State} {m t u : Machine}
    {returned : List Value} {id : String} {f : Value} (chunk : job.Begins .chunk s m)
    (ended : run s m = (.ok returned, t)) (contract : readContract (first returned) t = .ok (id, f) u) :
    job.Evaluates ((do
      let d : Declaration := { guildId := id, setup := ← runSetup f }
      hosted (note (declared d))
      return d : Hosted Declaration) u) := by
  cases opened : newContext u with
  | mk r opened' =>
    cases given : capabilityTable (some r) [] opened' with
    | mk ctx given' =>
      have setup := Begins.setup chunk ended contract opened given
      cases ended' : run (.ofCall f [ctx]) given' with
      | mk outcome u' =>
        have ran := runSetup_of_run opened given ended'
        cases outcome with
        | error v =>
          rw [Hosted.bind_of_error ran]
          exact .raised setup rfl ended' rfl
        | ok vs =>
          rw [Hosted.bind_of_ok ran]
          exact .declared setup ended'

theorem Job.evaluateEntry_evaluates {job : Job} {scripts : MountTable Source}
    (scanned : MountTable.scan job.tree job.entry = .ok scripts) :
    job.Evaluates (evaluateEntry scripts job.ready) := by
  unfold evaluateEntry
  cases installed : installLoader scripts job.ready with
  | error e t =>
    obtain ⟨message, rfl⟩ := installLoader_error installed
    rw [Hosted.bind_of_error installed]
    exact .other nofun
  | ok _ m =>
    rw [Hosted.bind_of_ok installed]
    cases readable : scripts.entrySource? with
    | none => exact .other nofun
    | some source =>
      cases source with
      | none => exact .other nofun
      | some block =>
        have chunk := Begins.chunk scanned readable installed
        dsimp only
        cases ended : run (.ofBlock block) m with
        | mk outcome t =>
          cases outcome with
          | error v =>
            rw [Hosted.bind_of_error (completed_of_raised ended)]
            exact .raised chunk rfl ended rfl
          | ok returned =>
            rw [Hosted.bind_of_ok (completed_of_ok ended)]
            rcases readContract_ends (rfl : readContract (first returned) t = _) with
              ⟨why, u, failed⟩ | ⟨_, _, id, g, _, u, _, _, _, _, _, contract⟩
            · rw [Hosted.bind_of_error failed]
              exact .other nofun
            · rw [Hosted.bind_of_ok contract]
              exact chunk.setup_evaluates ended contract

/-! ## What runs keep -/

/-- A property of values that is kept by every step of a job. -/
structure Job.Keeps (job : Job) (P : Value → Prop) : Prop where
  plain : Admits P
  step : ∀ stage n s m, job.Runs stage (n + 1) s m → s.Holds P →
    Handles P (Status.Holds P) (step s) m

namespace Job
variable {job : Job} {P : Value → Prop} {stage : Stage} {s : State} {m t : Machine}

theorem Runs.ends_holding (keeps : job.Keeps P) {n : Nat} (runs : job.Runs stage n s m)
    (there : s.Holds P) (holds : m.Holds P) :
    Status.Holds P (.ended (runFor n s m).1) ∧ (runFor n s m).2.Holds P := by
  induction n generalizing s m with
  | zero => exact ⟨keeps.plain endless rfl, holds⟩
  | succ n ih =>
    obtain ⟨led, kept, _⟩ := keeps.step stage n s m runs there holds
    unfold runFor
    cases stepped : Script.step s m with
    | mk status m' =>
      rw [stepped] at led kept
      cases status with
      | going s' => exact ih (runs.step stepped) led kept.stirred
      | ended outcome => exact ⟨led, kept⟩

theorem Begins.ends_holding (keeps : job.Keeps P) (begins : job.Begins stage s m)
    (there : s.Holds P) (holds : m.Holds P) {outcome : Except Value (List Value)}
    (ended : run s m = (outcome, t)) : Status.Holds P (.ended outcome) ∧ t.Holds P := by
  have ends := (Runs.begins begins).ends_holding keeps there holds.stirred
  rw [show runFor stepLimit s m.stirred = _ from ended] at ends
  exact ends

/-! ### Where the runs begin -/

theorem Begins.chunk_holds (keeps : job.Keeps P) (begins : job.Begins .chunk s m) :
    s.Holds P ∧ m.Holds P := by
  cases begins with
  | chunk _ _ installed =>
    exact ⟨State.holds_ofBlock _, installLoader_holds keeps.plain (ready_holds keeps.plain job) installed⟩

/-- What the host is led to when it asks for a field. -/
theorem asked_holds (keeps : job.Keeps P) {r : TableRef} {name : String} (holds : t.Holds P)
    {u : Machine} (asked : askField { hostDepth with runs := 0 } (.table r) name [] t = (s, u)) :
    s.Holds P ∧ u.Holds P := by
  have nothing : Stack.Holds P [] := List.forall_mem_nil _
  have asks := askField_handles keeps.plain { hostDepth with runs := 0 }
    (keeps.plain (.table r) rfl) name nothing holds
  rw [asked] at asks
  exact ⟨asks.1, asks.2.1⟩

/-- The machine after a field has been read in a run of the job. -/
theorem fieldRead_holds (keeps : job.Keeps P) {r : TableRef} {name : String}
    (begins : ∀ s t', askField { hostDepth with runs := 0 } (.table r) name [] t = (s, t') →
      job.Begins .field s t') (holds : t.Holds P) {v : Value} {u : Machine}
    (read : readField (.table r) name t = .ok (.ok v) u) : u.Holds P := by
  rw [readField_eq] at read
  cases asked : askField { hostDepth with runs := 0 } (.table r) name [] t with
  | mk s t' =>
    obtain ⟨there, kept⟩ := asked_holds keeps holds asked
    cases ended : run s t' with
    | mk outcome u' =>
      have kept := ((begins s t' asked).ends_holding keeps there kept ended).2
      simp only [asked, ended] at read
      cases outcome <;> cases read
      exact kept

theorem Begins.chunk_ends_holding (keeps : job.Keeps P) (begins : job.Begins .chunk s m)
    {outcome : Except Value (List Value)} (ended : run s m = (outcome, t)) : t.Holds P :=
  let ⟨there, holds⟩ := begins.chunk_holds keeps
  (begins.ends_holding keeps there holds ended).2

theorem Begins.field_holds (keeps : job.Keeps P) (begins : job.Begins .field s m) :
    s.Holds P ∧ m.Holds P := by
  cases begins with
  | idField chunk ended table asked =>
    exact asked_holds keeps (chunk.chunk_ends_holding keeps ended) asked
  | setupField chunk ended table read text solid asked =>
    refine asked_holds keeps ?_ asked
    exact fieldRead_holds keeps (fun _ _ => .idField chunk ended table)
      (chunk.chunk_ends_holding keeps ended) read

/-- The two fields of a contract leave a machine of which holds what held of it before. -/
theorem contract_holds (keeps : job.Keeps P) {u : Machine} {returned : List Value} {id : String}
    {f : Value} (chunk : job.Begins .chunk s m) (ended : run s m = (.ok returned, t))
    (contract : readContract (first returned) t = .ok (id, f) u) :
    (∃ g, f = .function g) ∧ u.Holds P := by
  rcases readContract_ends contract with ⟨why, _, failed⟩ | ⟨r, bytes, id', g, u', _, table, first,
    text, solid, second, same⟩
  · cases failed
  · cases same
    rw [table] at first second
    have kept := fieldRead_holds keeps (fun _ _ => .idField chunk ended table)
      (chunk.chunk_ends_holding keeps ended) first
    exact ⟨⟨g, rfl⟩, fieldRead_holds keeps
      (fun _ _ => .setupField chunk ended table first text solid) kept second⟩

theorem Begins.setup_holds (keeps : job.Keeps P) (begins : job.Begins .setup s m) :
    s.Holds P ∧ m.Holds P := by
  cases begins with
  | @setup _ _ _ _ _ _ _ _ _ _ r chunk ended contract opened given =>
    obtain ⟨⟨g, rfl⟩, kept⟩ := contract_holds keeps chunk ended contract
    have fresh := (newContext_handles kept).2.1
    rw [opened] at fresh
    have table := capabilityTable_handles keeps.plain (some r) (List.forall_mem_nil _) fresh
    rw [given] at table
    exact ⟨State.holds_ofCall (keeps.plain _ rfl) (List.forall_mem_singleton.2 table.1), table.2.1⟩

theorem evaluated_holds (keeps : job.Keeps P) {scripts : MountTable Source} {d : Declaration}
    (scanned : MountTable.scan job.tree job.entry = .ok scripts)
    (evaluated : evaluateEntry scripts job.ready = .ok d t) : t.Holds P := by
  cases evaluated ▸ evaluateEntry_evaluates scanned with
  | declared setup ended =>
    obtain ⟨there, holds⟩ := setup.setup_holds keeps
    have kept := (setup.ends_holding keeps there holds ended).2
    exact ⟨kept.tables, kept.cells, kept.threads⟩

/-- A machine at which a question is put has come from one predicate to the next. -/
theorem inquiry_holds (keeps : job.Keeps P) {scripts : MountTable Source} {d : Declaration}
    (scanned : MountTable.scan job.tree job.entry = .ok scripts)
    (evaluated : evaluateEntry scripts job.ready = .ok d t) :
    ∀ i ∈ Machine.host.inquiries d t, i.state.Holds P := by
  refine inquiries_hold (evaluated_holds keeps scanned evaluated)
    (fun line t holds => ⟨holds.tables, holds.cells, holds.threads⟩) fun i asked holds => ?_
  cases known : i.state.registry.get? i.question.handle with
  | none =>
    rw [reply_of_unknown known]
    exact holds
  | some f =>
    have entered := enter_handles keeps.plain i.question.channel.toScript holds
    cases shown : enter i.question.channel.toScript i.state with
    | mk channel u =>
      rw [shown] at entered
      cases ended : run (.ofCall (.function f) [channel]) u with
      | mk outcome u' =>
        have begins := Begins.predicate scanned evaluated asked known shown
        have kept := (begins.ends_holding keeps (State.holds_ofCall (keeps.plain _ rfl)
          (List.forall_mem_singleton.2 entered.1)) entered.2.1 ended).2
        cases outcome with
        | ok vs =>
          rw [reply_of_ok known shown ended]
          exact kept
        | error v =>
          rw [reply_of_raised known shown ended]
          exact kept

theorem Begins.predicate_holds (keeps : job.Keeps P) (begins : job.Begins .predicate s m) :
    s.Holds P ∧ m.Holds P := by
  cases begins with
  | @predicate _ _ _ _ i _ _ scanned evaluated asked known shown =>
    have entered := enter_handles keeps.plain i.question.channel.toScript
      (inquiry_holds keeps scanned evaluated i asked)
    rw [shown] at entered
    exact ⟨State.holds_ofCall (keeps.plain _ rfl) (List.forall_mem_singleton.2 entered.1),
      entered.2.1⟩

theorem Begins.holds (keeps : job.Keeps P) (begins : job.Begins stage s m) :
    s.Holds P ∧ m.Holds P := by
  cases stage with
  | chunk => exact begins.chunk_holds keeps
  | field => exact begins.field_holds keeps
  | setup => exact begins.setup_holds keeps
  | predicate => exact begins.predicate_holds keeps

/-- What every step of a job keeps holds wherever its runs come to. -/
theorem Runs.holds (keeps : job.Keeps P) {n : Nat} (runs : job.Runs stage n s m) :
    s.Holds P ∧ m.Holds P := by
  induction runs with
  | begins begins =>
    obtain ⟨there, holds⟩ := begins.holds keeps
    exact ⟨there, holds.stirred⟩
  | step runs stepped ih =>
    obtain ⟨led, kept, _⟩ := keeps.step stage _ _ _ runs ih.1 ih.2
    rw [stepped] at led kept
    exact ⟨led, kept.stirred⟩

/-! ## What comes of a job -/

theorem answer_of_failed {scripts : MountTable Source} {e : Failure}
    (scanned : MountTable.scan job.tree job.entry = .ok scripts)
    (failed : evaluateEntry scripts job.ready = .error e t) : job.answer = .error e := by
  unfold answer compile
  unfold ready at failed
  rw [scanned]
  dsimp only
  rw [failed]

theorem answer_of_evaluated {scripts : MountTable Source} {d : Declaration}
    (scanned : MountTable.scan job.tree job.entry = .ok scripts)
    (evaluated : evaluateEntry scripts job.ready = .ok d t) :
    job.answer = (resolve Machine.host d t).1 := by
  unfold answer compile
  unfold ready at evaluated
  rw [scanned]
  dsimp only
  rw [evaluated]

/-- A run that raises something is the end of the job. -/
theorem Begins.answer_of_raised (begins : job.Begins stage s m) (tells : stage.tells = true)
    {v : Value} (raised : run s m = (.error v, t)) :
    job.answer = .error (t.failure v) := by
  cases begins with
  | chunk scanned readable installed =>
    refine answer_of_failed (t := t) scanned ?_
    unfold evaluateEntry
    rw [Hosted.bind_of_ok installed, readable]
    exact Hosted.bind_of_error (completed_of_raised raised) _
  | @setup _ _ _ _ _ _ _ _ _ _ r chunk ended contract opened given =>
    cases chunk with
    | chunk scanned readable installed =>
      refine answer_of_failed (t := (setContext r none t).2) scanned ?_
      unfold evaluateEntry
      rw [Hosted.bind_of_ok installed, readable]
      refine (Hosted.bind_of_ok (completed_of_ok ended) _).trans ?_
      refine (Hosted.bind_of_ok contract _).trans ?_
      exact Hosted.bind_of_error (runSetup_of_run opened given raised) _
  | predicate scanned evaluated asked known shown =>
    rw [answer_of_evaluated scanned evaluated, resolve_error_iff]
    exact ⟨_, asked, by rw [reply_of_raised known shown raised]⟩
  | idField => cases tells
  | setupField => cases tells

theorem runFor_succ_of_going {n : Nat} {s' : State} {m' : Machine}
    (stepped : Script.step s m = (.going s', m')) : runFor (n + 1) s m = runFor n s' m'.stirred := by
  rw [runFor, stepped]

/-- What a run raises is what is raised from any state that it comes to. -/
theorem Runs.answer_of_raised {n : Nat} (runs : job.Runs stage n s m) (tells : stage.tells = true)
    {v : Value} (raised : runFor n s m = (.error v, t)) :
    job.answer = .error (t.failure v) := by
  induction runs with
  | begins begins => exact begins.answer_of_raised tells raised
  | step _ stepped ih => exact ih ((runFor_succ_of_going stepped).trans raised)

/-- Only a raised value for which nothing waits ends in that value. -/
theorem raise_of_ended {v : Value} (ended : Script.step s m = (.ended (.error v), t)) :
    s = ⟨.raise v, []⟩ ∧ m = t := by
  obtain ⟨control, stack⟩ := s
  cases control with
  | run site block => cases block <;> cases ended
  | raise w =>
    cases stack <;> cases ended
    exact ⟨rfl, rfl⟩
  | evaluate => cases ended
  | find => cases ended
  | call => cases ended
  | _ => cases stack <;> cases ended

theorem Runs.raise_of_raised {n : Nat} (runs : job.Runs stage n s m) {v : Value}
    (raised : runFor n s m = (.error v, t)) :
    v = endless ∨ ∃ k, job.Runs stage (k + 1) ⟨.raise v, []⟩ t := by
  induction n generalizing s m with
  | zero =>
    cases raised
    exact .inl rfl
  | succ n ih =>
    cases stepped : Script.step s m with
    | mk status m' =>
      cases status with
      | going s' =>
        rw [runFor_succ_of_going stepped] at raised
        exact ih (runs.step stepped) raised
      | ended outcome =>
        rw [runFor, stepped] at raised
        cases raised
        obtain ⟨rfl, rfl⟩ := raise_of_ended stepped
        exact .inr ⟨n, runs⟩

end Job
end GuildPlan
