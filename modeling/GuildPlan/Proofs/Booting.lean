import GuildPlan.Proofs.Handling

/-
  Machines that have run nothing yet. Whatever a platform offers, such a machine has logged
  nothing and registered nothing, no setup is open on it, and none of its values tells of a
  refusal.
-/
namespace GuildPlan.Script

variable {α β : Type}

/-! ## What changes objects only -/

/-- What is the same on two machines that differ in their objects at most. -/
structure Machine.Around (m m' : Machine) : Prop where
  log : m'.log = m.log
  registry : m'.registry = m.registry
  contexts : m'.contexts = m.contexts
  platform : m'.platform = m.platform
  globals : m'.globals = m.globals
  strings : m'.strings = m.strings

namespace Machine.Around
variable {m m' m'' : Machine}

theorem objects (m : Machine) (heap : Heap) (functions : Array Callable) (cells : Array Value) :
    Around m { m with heap, functions, cells } := ⟨rfl, rfl, rfl, rfl, rfl, rfl⟩

theorem trans (h : Around m m') (h' : Around m' m'') : Around m m'' :=
  ⟨h'.log.trans h.log, h'.registry.trans h.registry, h'.contexts.trans h.contexts,
    h'.platform.trans h.platform, h'.globals.trans h.globals, h'.strings.trans h.strings⟩

end Machine.Around

/-- Something that makes and changes objects, and nothing else of a machine. -/
def Inward (x : Run α) : Prop := ∀ m, Machine.Around m (x m).2

namespace Inward

theorem pure (a : α) : Inward (Pure.pure a) := fun m => .objects m _ _ _

theorem bind {x : Run α} {f : α → Run β} (first : Inward x) (rest : ∀ a, Inward (f a)) :
    Inward (x >>= f) := fun m => (first m).trans (rest (x m).1 (x m).2)

theorem looking {f : Machine → Run α} (rest : ∀ m, Inward (f m)) :
    Inward (MonadState.get >>= f) := fun m => rest m m

theorem then_pure {x : Run α} (f : α → β) (h : Inward x) :
    Inward (x >>= fun a => Pure.pure (f a)) := .bind h fun a => .pure (f a)

theorem mapM {f : α → Run β} (each : ∀ a, Inward (f a)) (xs : List α) : Inward (xs.mapM f) := by
  induction xs with
  | nil =>
    rw [List.mapM_nil]
    exact .pure _
  | cons x xs ih =>
    rw [List.mapM_cons]
    exact .bind (each x) fun b => .then_pure _ ih

end Inward

theorem newTable_inward (t : Table) : Inward (newTable t) := fun m => .objects m _ _ _

theorem newFunction_inward (c : Callable) : Inward (newFunction c) := fun m => .objects m _ _ _

theorem newCell_inward (v : Value) : Inward (newCell v) := fun m => .objects m _ _ _

theorem setRaw_inward (r : TableRef) (key value : Value) : Inward (setRaw r key value) :=
  fun m => .objects m _ _ _

theorem putFields_inward (r : TableRef) (fields : List (String × Value)) :
    Inward (putFields r fields) := by
  induction fields with
  | nil => exact .pure _
  | cons f fields ih => exact .bind (setRaw_inward r _ _) fun _ => ih

theorem newFields_inward (fields : List (String × Value)) : Inward (newFields fields) :=
  .then_pure _ (newTable_inward _)

theorem functionFields_inward (fields : List (String × Callable)) :
    Inward (functionFields fields) := .mapM (fun _ => .then_pure _ (newFunction_inward _)) fields

theorem functionTable_inward (fields : List (String × Callable)) : Inward (functionTable fields) :=
  .bind (functionFields_inward fields) newFields_inward

theorem capabilityTable_inward (context : Option ContextRef) (constants : List (String × Value)) :
    Inward (capabilityTable context constants) :=
  .bind (functionTable_inward _) fun _ => .bind (functionTable_inward _) fun _ =>
    .bind (functionTable_inward _) fun _ => .bind (newFunction_inward _) fun _ =>
      newFields_inward _

theorem foreignFunction_inward (code : Nat) (captured : List Value) :
    Inward (foreignFunction code captured) := by
  cases captured with
  | nil =>
    refine .looking fun m => ?_
    split
    · exact .pure _
    · exact newFunction_inward _
  | cons v vs => exact .bind (.mapM newCell_inward _) fun _ => newFunction_inward _

theorem offered_inward (s : Section) : Inward (offered s) := by
  refine .looking fun m => .mapM (fun (name, offer) => ?_) _
  cases offer with
  | code n => exact .then_pure _ (foreignFunction_inward n [])
  | value v => exact .pure _

theorem sectionTable_inward (s : Section) (fields : List (String × Callable)) :
    Inward (sectionTable s fields) :=
  .bind (offered_inward s) fun _ => .bind (functionFields_inward fields) fun _ =>
    newFields_inward _

theorem bootstrap_inward : Inward bootstrap := by
  refine .looking fun _ => .bind (sectionTable_inward _ _) fun string => ?_
  refine .bind (offered_inward _) fun behind => .bind (putFields_inward _ _) fun _ => ?_
  refine .bind (offered_inward _) fun base => .bind (putFields_inward _ _) fun _ => ?_
  refine .bind (functionFields_inward _) fun functions => .bind (putFields_inward _ _) fun _ => ?_
  refine .bind (sectionTable_inward _ _) fun table => ?_
  refine .bind (sectionTable_inward _ _) fun math => ?_
  refine .bind (sectionTable_inward _ _) fun utf8 => ?_
  refine .bind (sectionTable_inward _ _) fun coroutine => ?_
  exact .bind (capabilityTable_inward _ _) fun library => putFields_inward _ _

/-- All that a new machine has but its objects. -/
theorem boot_around (p : Platform) : Machine.Around (.blank p) (.boot p) := bootstrap_inward _

theorem boot_log (p : Platform) : (Machine.boot p).log = #[] := (boot_around p).log

theorem boot_registry (p : Platform) : (Machine.boot p).registry = {} := (boot_around p).registry

/-! ## Values of a new machine -/

variable {P : Value → Prop}

section
variable {m : Machine}

theorem putFields_handles (plain : Admits P) (r : TableRef) {fields : List (String × Value)}
    (each : ∀ f ∈ fields, P f.2) : Handles P (fun _ => True) (putFields r fields) m := by
  induction fields generalizing m with
  | nil => exact .pure trivial
  | cons f fields ih =>
    obtain ⟨first, others⟩ := List.forall_mem_cons.1 each
    exact .bind (setRaw_handles r (plain (.text f.1) rfl) first) fun _ => ih others

theorem offered_handles (plain : Admits P) (s : Section) :
    Handles P (fun fs => ∀ f ∈ fs, P f.2) (offered s) m := by
  refine .looking (fun _ => rfl) fun _ => .mapM (fun (name, offer) _ m => ?_) m
  cases offer with
  | code n =>
    exact .then_pure (foreignFunction_handles plain n (List.forall_mem_nil _)) fun _ there => there
  | value v => exact .pure (passable_holds plain (List.forall_mem_nil _) v)

theorem sectionTable_handles (plain : Admits P) (s : Section) (fields : List (String × Callable)) :
    Handles P P (sectionTable s fields) m :=
  .bind (offered_handles plain s) fun offers => .bind (functionFields_handles plain fields)
    fun functions => newFields_handles plain (List.forall_mem_append.2 ⟨offers, functions⟩)

theorem bootstrap_handles (plain : Admits P) : Handles P (fun _ => True) bootstrap m := by
  refine .looking (fun _ => rfl) fun _ => .bind (sectionTable_handles plain _ _) fun string => ?_
  refine .bind (offered_handles plain _) fun behind => ?_
  refine .bind (putFields_handles plain _ (List.forall_mem_cons.2 ⟨string, behind⟩)) fun _ => ?_
  refine .bind (offered_handles plain _) fun base => .bind (putFields_handles plain _ base) fun _ => ?_
  refine .bind (functionFields_handles plain _) fun functions => ?_
  refine .bind (putFields_handles plain _ functions) fun _ => ?_
  refine .bind (sectionTable_handles plain _ _) fun table => ?_
  refine .bind (sectionTable_handles plain _ _) fun math => ?_
  refine .bind (sectionTable_handles plain _ _) fun utf8 => ?_
  refine .bind (sectionTable_handles plain _ _) fun coroutine => ?_
  have words : ∀ f ∈ settingWords, P f.2 := List.forall_mem_map.2 fun s _ => plain (.text s.text) rfl
  refine .bind (capabilityTable_handles plain none words) fun library => ?_
  refine putFields_handles plain _ ?_
  simp only [List.forall_mem_cons]
  exact ⟨plain _ rfl, string, table, math, utf8, coroutine, library, List.forall_mem_nil _⟩

end

theorem blank_holds (p : Platform) : (Machine.blank p).Holds P := by
  refine ⟨fun t mem => ?_, fun v mem => absurd mem (Array.not_mem_empty v),
    fun t mem => absurd mem (Array.not_mem_empty t)⟩
  have empty : t = ∅ := by simpa [Machine.blank] using mem
  exact empty ▸ Table.Holds.empty

/-- Nothing has been refused on a machine that has run nothing. -/
theorem boot_holds (plain : Admits P) (p : Platform) : (Machine.boot p).Holds P :=
  (bootstrap_handles plain (blank_holds p)).2.1

end GuildPlan.Script
