import GuildPlan.Proofs.Replies
import GuildPlan.Proofs.Returning
import GuildPlan.Script.Interpreter

/-
  Where the loader finds modules that have been loaded. It comes to them by two tables that
  scripts reach, too: the one behind the variable `package`, and the one in a field of it. What
  makes new tables, or puts something under other keys, changes nothing of what it finds there.
-/
namespace GuildPlan.Script

variable {α β : Type}

/-! ## Tables that are arranged anew -/

theorem Heap.update_rearranged (h : Heap) (r : TableRef) (a : Arrangement) :
    h.Rearranged (h.update r a.arrange) := by
  intro r'
  by_cases inside : r.index < h.size
  · rw [h.table_update inside]
    split
    · next same => exact same ▸ a.rearranged _
    · exact .refl _
  · rw [h.update_of_outside inside]
    exact .refl _

theorem Heap.arranged_rearranged (h : Heap) (steps : List (TableRef × Arrangement)) :
    h.Rearranged (h.arranged steps) := by
  induction steps generalizing h with
  | nil => exact fun r => .refl _
  | cons step steps ih => exact fun r => (h.update_rearranged step.1 step.2 r).trans (ih _ r)

theorem Heap.size_arranged (h : Heap) (steps : List (TableRef × Arrangement)) :
    (h.arranged steps).size = h.size := by
  induction steps generalizing h with
  | nil => rfl
  | cons step steps ih => exact (ih _).trans Array.size_modify

/-! ## The tables of the loader -/

/-- The tables by which the loader comes to loaded modules: the global variables, the table
behind the variable `package`, and the one in its field `loaded`. -/
structure Cache where
  globals : TableRef
  package : TableRef
  loaded : TableRef

namespace Cache

/-- The tables that have to stay as they are. -/
def Has (c : Cache) (r : TableRef) : Prop := r = c.globals ∨ r = c.package ∨ r = c.loaded

/-- What is kept under the name of a module; nil if nothing is. -/
def entry (c : Cache) (m : Machine) (name : String) : Value := (m.table c.loaded).get (.text name)

/-- A machine on which the loader comes to these tables, with nothing behind them. -/
structure Stands (c : Cache) (m : Machine) : Prop where
  globals : m.globals = c.globals
  package : (m.table c.globals).get (.text "package") = .table c.package
  loaded : (m.table c.package).get (.text "loaded") = .table c.loaded
  packageBare : (m.table c.package).metatable = none
  loadedBare : (m.table c.loaded).metatable = none
  inside : ∀ r, c.Has r → r.index < m.heap.size
  apart : c.loaded ≠ c.globals ∧ c.loaded ≠ c.package ∧ c.package ≠ c.globals

/-! ## Assignments -/

/-- Whether a value put under a key of a table takes the place of something that the loader goes
by. -/
def replaces (c : Cache) (r : TableRef) (key : Value) : Bool :=
  r = c.loaded || (r = c.package && key.key? = some (.text "loaded")) ||
    (r = c.globals && key.key? = some (.text "package"))

/-- Whether an action assigns to the variable `package`, to the field `loaded` of its table, or
to an entry of the table there. -/
def assigns (c : Cache) (m : Machine) (site : Site) (vs : List Value) : Action → Bool
  | .assign name => name = "package" && (site.find? name).isNone
  | .set =>
    match m.aim (first vs) (first vs.tail) with
    | .value (.table r) => c.replaces r (first vs.tail)
    | _ => false
  | _ => false

/-- Whether the first argument is a table of which the loader needs that nothing is behind it. -/
def bares (c : Cache) : List Value → Bool
  | .table r :: _ => r = c.package || r = c.loaded
  | _ => false

/-- Whether foreign code orders to put something where the loader goes. -/
def orders (c : Cache) : Order → Bool
  | .put (.table r) key _ => c.replaces r key
  | _ => false

/-- Whether the next step of a script assigns to what the loader goes by, or sets a metatable
there. -/
def tampers (c : Cache) (m : Machine) (s : State) : Bool :=
  match s.control, s.stack with
  | .find site action found [], _ => c.assigns m site (found.reverse.map m.operand) action
  | .call _ _ f args, _ =>
    match m.callee f args with
    | .function r args =>
      match m.callable r with
      | .builtin .setmetatable => c.bares args
      | _ => false
    | .refusal _ => false
  | .give vs, .foreign _ code seen :: _ => c.orders (m.order code (seen ++ [vs]))
  | _, _ => false

variable {c : Cache} {m : Machine}

/-! ## Machines that stay as they are there -/

/-- A table that leads the loader where another one has led it from the same place. -/
structure Alike (c : Cache) (r : TableRef) (t t' : Table) : Prop where
  package : r = c.globals → t'.get (.text "package") = t.get (.text "package")
  loaded : r = c.package → t'.get (.text "loaded") = t.get (.text "loaded")
  metatable : r = c.package ∨ r = c.loaded → t'.metatable = t.metatable

theorem Alike.refl (c : Cache) (r : TableRef) (t : Table) : c.Alike r t t :=
  ⟨fun _ => rfl, fun _ => rfl, fun _ => rfl⟩

theorem Stands.of_alike (stands : c.Stands m) {m' : Machine} (globals : m'.globals = m.globals)
    (tables : ∀ r, c.Has r → r.index < m'.heap.size ∧ c.Alike r (m.table r) (m'.table r)) :
    c.Stands m' where
  globals := globals.trans stands.globals
  package := ((tables _ (.inl rfl)).2.package rfl).trans stands.package
  loaded := ((tables _ (.inr (.inl rfl))).2.loaded rfl).trans stands.loaded
  packageBare := ((tables _ (.inr (.inl rfl))).2.metatable (.inl rfl)).trans stands.packageBare
  loadedBare := ((tables _ (.inr (.inr rfl))).2.metatable (.inr rfl)).trans stands.loadedBare
  inside r has := (tables r has).1
  apart := stands.apart

/-- A machine on which no table is changed. -/
theorem Stands.grows (stands : c.Stands m) {m' : Machine} (globals : m'.globals = m.globals)
    (grows : m.heap.Grows m'.heap) :
    c.Stands m' ∧ ∀ name, c.entry m' name = c.entry m name := by
  have tables : ∀ r, c.Has r → m'.table r = m.table r :=
    fun r has => (grows r (stands.inside r has)).2
  refine ⟨stands.of_alike globals fun r has => ⟨(grows r (stands.inside r has)).1, ?_⟩,
    fun name => ?_⟩
  · rw [tables r has]
    exact .refl c r _
  · rw [entry, tables _ (.inr (.inr rfl)), entry]

/-- What leads the loader on does so however its tables are arranged. -/
theorem Stands.stirred (stands : c.Stands m) :
    c.Stands m.stirred ∧ ∀ name, c.entry m.stirred name = c.entry m name := by
  have tables := m.heap.arranged_rearranged (m.platform.stir m.clock)
  have size := m.heap.size_arranged (m.platform.stir m.clock)
  refine ⟨stands.of_alike rfl fun r has => ⟨size.symm ▸ stands.inside r has, ?_⟩,
    fun name => (tables c.loaded).get _⟩
  exact ⟨fun _ => (tables r).get _, fun _ => (tables r).get _, fun _ => (tables r).metatable⟩

theorem Stands.table_update (stands : c.Stands m) {r r' : TableRef} (has : c.Has r')
    (f : Table → Table) : ({ m with heap := m.heap.update r f } : Machine).table r' =
      if r' = r then f (m.table r) else m.table r' := by
  by_cases inside : r.index < m.heap.size
  · exact m.heap.table_update inside f r'
  · have apart : r' ≠ r := fun same => inside (same ▸ stands.inside r' has)
    rw [if_neg apart]
    show (m.heap.update r f).table r' = m.heap.table r'
    rw [m.heap.update_of_outside inside]

/-- A machine on which one table is changed, but not in what leads the loader on. -/
theorem Stands.update (stands : c.Stands m) {r : TableRef} {f : Table → Table}
    (alike : c.Alike r (m.table r) (f (m.table r))) :
    c.Stands { m with heap := m.heap.update r f } := by
  refine stands.of_alike rfl fun r' has => ⟨?_, ?_⟩
  · show r'.index < (Array.modify m.heap r.index f).size
    rw [Array.size_modify]
    exact stands.inside r' has
  · rw [stands.table_update has]
    split
    · next same => exact same ▸ alike
    · exact .refl c r' _

theorem Stands.entry_update (stands : c.Stands m) (r : TableRef) (f : Table → Table)
    (name : String) : c.entry { m with heap := m.heap.update r f } name =
      if c.loaded = r then (f (m.table r)).get (.text name) else c.entry m name := by
  unfold entry
  rw [stands.table_update (.inr (.inr rfl))]
  split <;> rfl

end Cache

/-! ## What leaves the loaded modules alone -/

/-- Something done to a machine: from one that the loader finds its way on it comes to a result
that `Q` holds of, and to a machine where the loader finds the same. -/
def Spares (c : Cache) (Q : α → Prop) (x : Run α) (m : Machine) : Prop :=
  c.Stands m → Q (x m).1 ∧ c.Stands (x m).2 ∧ ∀ name, c.entry (x m).2 name = c.entry m name

namespace Spares
variable {c : Cache} {Q : α → Prop} {S : β → Prop} {m : Machine}

theorem pure {a : α} (here : Q a) : Spares c Q (Pure.pure a) m :=
  fun stands => ⟨here, stands, fun _ => rfl⟩

theorem bind {x : Run α} {f : α → Run β} (first : Spares c Q x m)
    (rest : Q (x m).1 → Spares c S (f (x m).1) (x m).2) : Spares c S (x >>= f) m := by
  intro stands
  obtain ⟨here, stands', same⟩ := first stands
  obtain ⟨there, stands'', same'⟩ := rest here stands'
  exact ⟨there, stands'', fun name => (same' name).trans (same name)⟩

/-- What ends in a value that is made of what was done before. -/
theorem then_pure {x : Run α} {f : α → β} (first : Spares c Q x m) (made : ∀ a, Q a → S (f a)) :
    Spares c S (x >>= fun a => Pure.pure (f a)) m :=
  first.bind fun here => .pure (made _ here)

/-- What is done after a look at the machine. -/
theorem looking {f : Machine → Run α} (rest : c.Stands m → Spares c Q (f m) m) :
    Spares c Q (MonadState.get >>= f) m := fun stands => rest stands stands

/-- What makes new tables, and changes none that are there. -/
theorem of_grows {x : Run α} (here : Q (x m).1) (globals : (x m).2.globals = m.globals)
    (grows : m.heap.Grows (x m).2.heap) : Spares c Q x m :=
  fun stands => ⟨here, stands.grows globals grows⟩

/-- What has nothing to do with tables. -/
theorem of_heap {x : Run α} (here : Q (x m).1) (globals : (x m).2.globals = m.globals)
    (heap : (x m).2.heap = m.heap) : Spares c Q x m :=
  .of_grows here globals (heap ▸ .refl m.heap)

end Spares

/-! ## The machine's own operations -/

section
variable {c : Cache} {m : Machine}

theorem newTable_spares (t : Table) : Spares c (¬ c.Has ·) (newTable t) m := fun stands =>
  have fresh : ¬ c.Has ⟨m.heap.size⟩ := fun has => Nat.lt_irrefl _ (stands.inside _ has)
  ⟨fresh, stands.grows rfl (m.heap.grows_push t)⟩

theorem newFunction_spares (callable : Callable) :
    Spares c (fun _ => True) (newFunction callable) m := .of_heap trivial rfl rfl

theorem newCell_spares (v : Value) : Spares c (fun _ => True) (newCell v) m :=
  .of_heap trivial rfl rfl

theorem newThread_spares (body : Value) : Spares c (fun _ => True) (newThread body) m :=
  .of_heap trivial rfl rfl

theorem newContext_spares : Spares c (fun _ => True) newContext m := .of_heap trivial rfl rfl

theorem newFault_spares (f : Fault) : Spares c (fun _ => True) (newFault f) m :=
  .of_heap trivial rfl rfl

theorem setCell_spares (r : CellRef) (v : Value) : Spares c (fun _ => True) (setCell r v) m :=
  .of_heap trivial rfl rfl

theorem setThread_spares (r : ThreadRef) (t : Thread) :
    Spares c (fun _ => True) (setThread r t) m := .of_heap trivial rfl rfl

theorem setContext_spares (r : ContextRef) (context : Context) :
    Spares c (fun _ => True) (setContext r context) m := .of_heap trivial rfl rfl

theorem note_spares (line : LogLine) : Spares c (fun _ => True) (note line) m :=
  .of_heap trivial rfl rfl

theorem global_spares (name : String) : Spares c (fun _ => True) (global name) m :=
  .looking fun _ => .pure trivial

theorem updateHeap_spares {r : TableRef} {f : Table → Table} (others : r ≠ c.loaded)
    (alike : c.Alike r (m.table r) (f (m.table r))) :
    Spares c (fun _ => True)
      (modify fun m => { m with heap := m.heap.update r f } : Run Unit) m := fun stands =>
  ⟨trivial, stands.update alike, fun name =>
    (stands.entry_update r f name).trans (if_neg others.symm)⟩

theorem Table.metatable_set (t : Table) (key value : Value) :
    (t.set key value).metatable = t.metatable := by
  unfold Table.set
  split <;> rfl

/-- A value may be put under any key but those that the loader goes by. -/
theorem setRaw_spares {r : TableRef} {key : Value} (value : Value) (others : r ≠ c.loaded)
    (package : r = c.package → key ≠ .text "loaded")
    (globals : r = c.globals → key ≠ .text "package") :
    Spares c (fun _ => True) (setRaw r key value) m := by
  refine updateHeap_spares others ⟨fun same => ?_, fun same => ?_, fun _ => ?_⟩
  · rw [Table.get_set, if_neg (globals same).symm]
  · rw [Table.get_set, if_neg (package same).symm]
  · exact Table.metatable_set _ _ _

theorem setMetatable_spares {r : TableRef} (metatable : Option TableRef) (others : r ≠ c.loaded)
    (package : r ≠ c.package) : Spares c (fun _ => True) (setMetatable r metatable) m :=
  updateHeap_spares others
    ⟨fun _ => rfl, fun _ => rfl, fun same => same.elim (absurd · package) (absurd · others)⟩

theorem setGlobal_spares {name : String} (v : Value) (other : name ≠ "package") :
    Spares c (fun _ => True) (setGlobal name v) m := by
  refine .looking fun stands => ?_
  obtain ⟨apart, _, apart'⟩ := stands.apart
  rw [stands.globals]
  refine setRaw_spares v apart.symm (fun same => absurd same.symm apart') fun _ same => ?_
  exact other (Table.text_injective same)

/-! ## Exchange with the host -/

theorem leave_spares (location : Location) (v : Value) :
    Spares c (fun _ => True) (leave location v) m := by
  refine .of_heap trivial ?_ ?_
  all_goals
    unfold leave
    rw [run_modifyGet]
    cases toJson m.heap location v m.registry <;> rfl

mutual

/-- What comes in from the host comes in new tables. -/
theorem ofJson_grows (g : Registry) : ∀ (v : Json) (heap : Heap), heap.Grows (ofJson g v heap).2
  | .null, heap => .refl heap
  | .bool _, heap => .refl heap
  | .int n, heap => by
    unfold ofJson
    exact .refl heap
  | .float _, heap => .refl heap
  | .str _, heap => .refl heap
  | .arr items, heap => by
    unfold ofJson
    exact (ofItems_grows g items heap).trans (Heap.grows_push _ _)
  | .obj members, heap => by
    unfold ofJson
    cases (Json.marker? (.obj members)).bind g.get? with
    | some f => exact .refl heap
    | none => exact (ofMembers_grows g members heap).trans (Heap.grows_push _ _)

theorem ofItems_grows (g : Registry) :
    ∀ (vs : List Json) (heap : Heap), heap.Grows (ofItems g vs heap).2
  | [], heap => .refl heap
  | v :: vs, heap => by
    unfold ofItems
    exact (ofJson_grows g v heap).trans (ofItems_grows g vs _)

theorem ofMembers_grows (g : Registry) :
    ∀ (ms : List (String × Json)) (heap : Heap), heap.Grows (ofMembers g ms heap).2
  | [], heap => .refl heap
  | (key, v) :: rest, heap => by
    unfold ofMembers
    exact (ofJson_grows g v heap).trans (ofMembers_grows g rest _)

end

theorem enter_spares (v : Json) : Spares c (fun _ => True) (enter v) m :=
  .of_grows trivial rfl (ofJson_grows m.registry v m.heap)

theorem readOnly_spares (capability : Capability) (json : Json) :
    Spares c (fun _ => True) (readOnly capability json) m := by
  unfold readOnly
  split
  · exact .pure trivial
  · dsimp only
    split
    · exact .bind (note_spares _) fun _ => .then_pure (enter_spares _) fun _ _ => trivial
    · exact .then_pure (enter_spares _) fun _ _ => trivial

theorem declareIn_spares (capability : Capability) (r : ContextRef) (json : Json) :
    Spares c (fun _ => True) (declareIn capability r json) m := by
  refine .looking fun _ => ?_
  split
  · exact .pure trivial
  · exact .bind (setContext_spares r _) fun _ => .then_pure (enter_spares _) fun _ _ => trivial

theorem runCapability_spares (capability : Capability) (context : Option ContextRef) (arg : Value) :
    Spares c (fun _ => True) (runCapability capability context arg) m := by
  unfold runCapability
  split
  · refine .bind (leave_spares capability.location _) fun _ => ?_
    split
    · exact .pure trivial
    · exact readOnly_spares capability _
    · exact declareIn_spares capability _ _
  · exact .pure trivial

theorem Spares.mapM {f : α → Run β} (each : ∀ a m, Spares c (fun _ => True) (f a) m)
    (xs : List α) (m : Machine) : Spares c (fun _ => True) (xs.mapM f) m := by
  induction xs generalizing m with
  | nil =>
    rw [List.mapM_nil]
    exact .pure trivial
  | cons x xs ih =>
    rw [List.mapM_cons]
    exact .bind (each x m) fun _ => .then_pure (ih _) fun _ _ => trivial

theorem newFields_spares (fields : List (String × Value)) :
    Spares c (fun _ => True) (newFields fields) m :=
  .then_pure (newTable_spares _) fun _ _ => trivial

theorem functionTable_spares (fields : List (String × Callable)) :
    Spares c (fun _ => True) (functionTable fields) m :=
  .bind (.mapM (fun _ _ => .then_pure (newFunction_spares _) fun _ _ => trivial) fields m)
    fun _ => newFields_spares _

theorem capabilityTable_spares (context : Option ContextRef) (constants : List (String × Value)) :
    Spares c (fun _ => True) (capabilityTable context constants) m :=
  .bind (functionTable_spares _) fun _ => .bind (functionTable_spares _) fun _ =>
    .bind (functionTable_spares _) fun _ => .bind (newFunction_spares _) fun _ =>
      newFields_spares _

end

end GuildPlan.Script
