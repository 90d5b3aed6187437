import GuildPlan.Proofs.Courses
import GuildPlan.Proofs.Sample

/-
  Modules that are provided once and for all. As long as nothing tampers with what the loader goes
  by, an entry of its table changes only when a module of that name has returned. So what has been
  provided is provided again, and no code is run for it, unless an older run of the same module is
  still to return. A module that raises something leaves nothing behind, and runs again, unless a
  run within its own has returned before.
-/
namespace GuildPlan.Script

variable {c : Cache} {R : Request → Prop} {name : String} {v : Value} {a b : Moment}

/-! ## What is kept from one moment to the next -/

/-- The loader finds its way at a moment, and of the modules that run there `R` holds. -/
structure Moment.Keeps (c : Cache) (R : Request → Prop) (a : Moment) : Prop where
  stands : c.Stands a.machine
  proper : ∀ s m, a = .running s m → s.Proper c R m

theorem Moment.Keeps.idle {m : Machine} (stands : c.Stands m) : Keeps c R (.idle m) :=
  ⟨stands, nofun⟩

/-- A script goes on once the platform has arranged tables. -/
theorem Moment.Keeps.stirred {s : State} {m : Machine} (stands : c.Stands m)
    (proper : s.Proper c R m) :
    Keeps c R (.running s m.stirred) ∧ ∀ name, c.entry m.stirred name = c.entry m name := by
  obtain ⟨stands', same⟩ := stands.stirred
  refine ⟨⟨stands', fun s' m' equal => ?_⟩, same⟩
  cases equal
  exact proper.congr same

/-- Between runs the host changes nothing that the loader goes by. -/
theorem Moment.Keeps.after {α : Type} {x : Run α} {Q : α → Prop} {m m' : Machine} {r : α}
    (done : x m = (r, m')) (stands : c.Stands m) (spares : Spares c Q x m) :
    Keeps c R (.idle m') ∧
      ∀ name, (Moment.idle m).stores name = false → c.entry m' name = c.entry m name := by
  obtain ⟨_, stands', same⟩ := spares stands
  rw [done] at stands' same
  exact ⟨.idle stands', fun name _ => same name⟩

theorem askField_spares {m : Machine} {stack : Stack} (depth : Depth) (v : Value) (name : String)
    (waits : stack.Fine c R) : Spares c (State.Fine c R) (askField depth v name stack) m :=
  .looking fun _ => .pure (State.fine_answered depth 2 _ trivial (waits.push trivial))

/-- A step keeps what the loader may rely on, and all entries but that of a module that is
stored. -/
theorem Moment.Keeps.step {s : State} {m : Machine} (keeps : Keeps c R (.running s m))
    (honest : (Moment.running s m).honest c = true)
    (missing : ∀ request : Request, c.entry m request.name = .nil → R request) :
    Leads c R s (Script.step s) m :=
  step_leads keeps.stands (keeps.proper s m rfl) (Bool.not_eq_true' _ ▸ honest) missing

/-- So does whatever comes next. -/
theorem Moment.Next.keeps (next : a.Next b) (keeps : a.Keeps c R) (honest : a.honest c = true)
    (missing : ∀ request : Request, c.entry a.machine request.name = .nil → R request) :
    b.Keeps c R ∧
      ∀ name, a.stores name = false → c.entry b.machine name = c.entry a.machine name := by
  have nothing : Stack.Fine c R [] := List.forall_mem_nil _
  have host : Stack.Fine c R [hostFrame] := nothing.push trivial
  have stands := keeps.stands
  cases next with
  | @step s s' m m' stepped =>
    obtain ⟨stands', proper', entries⟩ := keeps.step honest missing
    rw [stepped] at stands' proper' entries
    obtain ⟨keeps', same⟩ := Keeps.stirred stands' proper'
    exact ⟨keeps', fun name apart => (same name).trans (entries name apart)⟩
  | @ends s m m' outcome stepped =>
    obtain ⟨stands', _, entries⟩ := keeps.step honest missing
    rw [stepped] at stands' entries
    exact ⟨.idle stands', entries⟩
  | stops => exact ⟨.idle stands, fun _ _ => rfl⟩
  | chunk =>
    obtain ⟨keeps', same⟩ := Keeps.stirred (s := .ofBlock _) stands (.fine (host.push trivial))
    exact ⟨keeps', fun name _ => same name⟩
  | call =>
    obtain ⟨keeps', same⟩ := Keeps.stirred (s := .ofCall _ _) stands (.fine host)
    exact ⟨keeps', fun name _ => same name⟩
  | @field v name s m m' asked =>
    have asks := askField_spares { hostDepth with runs := 0 } v name nothing stands
    rw [Moment.machine, asked] at asks
    obtain ⟨fine, stands', kept⟩ := asks
    obtain ⟨keeps', same⟩ := Keeps.stirred stands' (.fine fine)
    exact ⟨keeps', fun name _ => (same name).trans (kept name)⟩
  | opens opened => exact Keeps.after opened stands newContext_spares
  | offers offered => exact Keeps.after offered stands (capabilityTable_spares _ _)
  | closes => exact Keeps.after rfl stands (setContext_spares _ _)
  | shows shown => exact Keeps.after shown stands (enter_spares _)
  | notes => exact Keeps.after rfl stands (note_spares _)

/-! ## What is kept on a course -/

theorem Cache.Course.keeps (course : c.Course a b) (keeps : a.Keeps c fun _ => True) :
    b.Keeps c fun _ => True := by
  induction course with
  | refl => exact keeps
  | tail _ next ih => exact (next.2.keeps ih next.1 fun _ _ => trivial).1

/-- What is there under a name, or not there, stays so until a module of that name is stored. -/
theorem Cache.CourseWithout.entry (course : c.CourseWithout name a b)
    (keeps : a.Keeps c fun _ => True) : c.entry b.machine name = c.entry a.machine name := by
  induction course with
  | refl => rfl
  | tail before next ih =>
    obtain ⟨apart, honest, next⟩ := next
    have kept := Cache.Course.keeps (Cache.CourseWithout.course before) keeps
    exact ((next.keeps kept honest fun _ _ => trivial).2 name apart).trans ih

/-- A module is there at a moment, and no module of its name runs. -/
structure Moment.Settled (c : Cache) (name : String) (v : Value) (a : Moment) : Prop where
  keeps : a.Keeps c (·.name ≠ name)
  entry : c.entry a.machine name = v
  there : v ≠ .nil

/-- No module of a name is stored where none of that name runs. -/
theorem Moment.Keeps.stores_eq_false (keeps : a.Keeps c (·.name ≠ name)) :
    a.stores name = false := by
  cases a with
  | idle m => rfl
  | running s m =>
    have proper := keeps.proper s m rfl
    obtain ⟨control, stack⟩ := s
    show State.stores name ⟨control, stack⟩ = false
    unfold State.stores
    split
    · next vs request modules below given waits =>
      dsimp only at given waits
      subst given waits
      cases proper with
      | fine fine => exact decide_eq_false (fine _ List.mem_cons_self).2
    · rfl

theorem Moment.Settled.next (settled : a.Settled c name v) (next : a.Next b)
    (honest : a.honest c = true) : b.Settled c name v := by
  obtain ⟨keeps, entry, there⟩ := settled
  have missing : ∀ request : Request,
      c.entry a.machine request.name = .nil → request.name ≠ name := by
    rintro request absent same
    rw [same, entry] at absent
    exact there absent
  obtain ⟨keeps', same⟩ := next.keeps keeps honest missing
  exact ⟨keeps', (same name keeps.stores_eq_false).trans entry, there⟩

theorem Cache.Course.settled (course : c.Course a b) (settled : a.Settled c name v) :
    b.Settled c name v := by
  induction course with
  | refl => exact settled
  | tail _ next ih => exact ih.next next.2 next.1

/-- A module that is there is given to whoever asks for it, and nothing is run. -/
theorem Moment.Settled.answers {s : State} {m : Machine} {request : Request}
    (settled : (Moment.running s m).Settled c name v) (requested : m.requested? s = some request)
    (same : request.name = name) : Quietly m s ⟨.give [v], s.stack⟩ := by
  obtain ⟨keeps, entry, there⟩ := settled
  have stands : c.Stands m := keeps.stands
  have given : c.entry m request.name = v := (congrArg _ same).trans entry
  have answers := stands.answers requested (given ▸ there)
  rwa [given] at answers

/-! ## Modules that have been provided -/

/-- Whether a module of some name is being loaded. -/
def Stack.loads (stack : Stack) (name : String) : Bool :=
  stack.any fun
    | .loading request _ => request.name = name
    | _ => false

theorem Stack.Fine.apart {stack : Stack} (fine : stack.Fine c R)
    (apart : stack.loads name = false) : stack.Fine c (·.name ≠ name) := by
  intro f mem
  have here := fine f mem
  have other := List.any_eq_false.1 apart f mem
  cases f with
  | loading request stage => exact ⟨here.1, by simpa using other⟩
  | _ => trivial

/-- What a loader is about to give, and for what it was asked. -/
def State.provided? (s : State) : Option (Request × Value) :=
  match s.control, s.stack with
  | .give vs, .loading request (.cached _) :: _ =>
    if first vs = .nil then none else some (request, first vs)
  | .give _, .loading request (.storing v) :: _ => some (request, v)
  | _, _ => none

theorem State.provided?_cases {s : State} {request : Request}
    (provided : s.provided? = some (request, v)) :
    (∃ vs modules stack, first vs = v ∧ v ≠ .nil ∧
      s = ⟨.give vs, .loading request (.cached modules) :: stack⟩) ∨
    ∃ vs stack, s = ⟨.give vs, .loading request (.storing v) :: stack⟩ := by
  obtain ⟨control, stack⟩ := s
  unfold provided? at provided
  split at provided
  · next vs request' modules below given waits =>
    cases given
    cases waits
    split at provided
    · cases provided
    · next there =>
      cases provided
      exact .inl ⟨vs, modules, below, rfl, there, rfl⟩
  · next vs request' v' below given waits =>
    cases given
    cases waits
    cases provided
    exact .inr ⟨vs, below, rfl⟩
  · cases provided

/-- What is provided while no other module of that name is being loaded is settled. -/
theorem Moment.Keeps.settled {s : State} {m : Machine} {request : Request}
    (keeps : Keeps c (fun _ => True) (.running s m)) (provided : s.provided? = some (request, v))
    (apart : Stack.loads s.stack.tail request.name = false) :
    Settled c request.name v (.running s m) := by
  have stands : c.Stands m := keeps.stands
  have proper := keeps.proper s m rfl
  -- The loader is at one of its last two steps, and what it gives is there by then.
  have here : c.entry m request.name = v ∧ v ≠ .nil ∧ s.Proper c (·.name ≠ request.name) m := by
    rcases State.provided?_cases provided with
      ⟨vs, modules, stack, rfl, there, rfl⟩ | ⟨vs, stack, rfl⟩
    · cases proper with
      | fine fine => cases (fine _ List.mem_cons_self).1
      | cached below => exact ⟨rfl, there, .cached (below.apart apart)⟩
    · cases proper with
      | fine fine => cases (fine _ List.mem_cons_self).1
      | storing below entry there => exact ⟨entry, there, .storing (below.apart apart) entry there⟩
  obtain ⟨entry, there, proper'⟩ := here
  refine ⟨⟨stands, fun s' m' same => ?_⟩, entry, there⟩
  cases same
  exact proper'

/-! ## Modules of an evaluation -/

/-- Whether a module of some name raises something to whoever has asked for it. -/
def State.fails (name : String) (s : State) : Bool :=
  match s.control, s.stack with
  | .raise _, .loading request (.running _) :: _ => request.name = name
  | _, _ => false

end GuildPlan.Script
