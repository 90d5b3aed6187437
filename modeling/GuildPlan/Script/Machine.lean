import GuildPlan.Capability
import GuildPlan.Log
import GuildPlan.Mount.Table
import GuildPlan.Script.Exchange
import GuildPlan.Script.Frame
import GuildPlan.Script.Platform

/-
  The state of an interpreter, and the effects of a running script on it.

  Objects are numbered in the order in which they are made, and nothing is collected, so there are
  neither finalizers nor weak tables. Scripts never see the numbers; what an object is called in a
  text is up to the platform.
-/
namespace GuildPlan.Script

structure ContextRef where
  index : Nat
  deriving DecidableEq

/-- The functions of the language that are modelled. -/
inductive Builtin
  | print
  | type
  | tostring
  | pcall
  | error
  | assert
  | setmetatable
  | getmetatable
  | createThread
  | wrapThread
  deriving DecidableEq

/-- What a function value refers to. -/
inductive Callable
  | closure (params : List String) (body : Block) (scope : Scope)
  | builtin (b : Builtin)
  /-- A capability of the library, or of a setup context. -/
  | capability (c : Capability) (context : Option ContextRef)
  /-- The loader of the scripts that one evaluation mounts. -/
  | require (scripts : MountTable Source)
  | resume (thread : ThreadRef)
  /-- Foreign code, with variables of its own. -/
  | foreign (code : Nat) (captured : List CellRef)

instance : Inhabited Callable := ⟨.builtin .type⟩

/-- How far a thread has come. One that runs may have resumed another one and wait for it. -/
inductive Thread
  | fresh (body : Value)
  | running
  /-- A thread that has been left, with the frames that wait in it. -/
  | suspended (own : Suspension)
  | dead

instance : Inhabited Thread := ⟨.dead⟩

structure Machine where
  heap : Heap := #[]
  functions : Array Callable := #[]
  cells : Array Value := #[]
  threads : Array Thread := #[]
  /-- How many error objects there have been. -/
  faults : Nat := 0
  globals : TableRef := ⟨0⟩
  /-- The metatable of all strings. -/
  strings : TableRef := ⟨1⟩
  registry : Registry := {}
  contexts : Array Context := #[]
  log : Array LogLine := #[]
  platform : Platform := .plain
  /-- How often the platform has had a chance to arrange tables. -/
  clock : Nat := 0

/-- The heap with tables arranged, one after another. -/
def Heap.arranged (h : Heap) : List (TableRef × Arrangement) → Heap
  | [] => h
  | (r, a) :: rest => (h.update r a.arrange).arranged rest

/-- Something done to a machine. -/
abbrev Run := StateM Machine

namespace Machine

def table (m : Machine) (r : TableRef) : Table := m.heap.table r
def callable (m : Machine) (r : FunctionRef) : Callable := m.functions.getD r.index default
def cell (m : Machine) (r : CellRef) : Value := m.cells.getD r.index .nil
def thread (m : Machine) (r : ThreadRef) : Thread := m.threads.getD r.index default
def context (m : Machine) (r : ContextRef) : Context := m.contexts.getD r.index none

def noted (m : Machine) (line : LogLine) : Machine := { m with log := m.log.push line }

/-- The machine a moment later. -/
def stirred (m : Machine) : Machine :=
  { m with
    heap := m.heap.arranged (m.platform.stir m.clock)
    clock := m.clock + 1 }

end Machine

/-! ## New objects -/

def newTable (t : Table) : Run TableRef :=
  modifyGet fun m =>
    let (r, heap) := m.heap.add t
    (r, { m with heap })

def newFunction (c : Callable) : Run Value :=
  modifyGet fun m =>
    (.function ⟨m.functions.size⟩, { m with functions := m.functions.push c })

def newCell (v : Value) : Run CellRef :=
  modifyGet fun m => (⟨m.cells.size⟩, { m with cells := m.cells.push v })

def newThread (body : Value) : Run ThreadRef :=
  modifyGet fun m => (⟨m.threads.size⟩, { m with threads := m.threads.push (.fresh body) })

def newContext : Run ContextRef :=
  modifyGet fun m => (⟨m.contexts.size⟩, { m with contexts := m.contexts.push (some {}) })

/-! ## Reading and writing -/

def setRaw (r : TableRef) (key value : Value) : Run Unit :=
  modify fun m => { m with heap := m.heap.update r (·.set key value) }

def setMetatable (r : TableRef) (metatable : Option TableRef) : Run Unit :=
  modify fun m => { m with heap := m.heap.update r ({ · with metatable }) }

def setCell (r : CellRef) (v : Value) : Run Unit :=
  modify fun m => { m with cells := m.cells.setIfInBounds r.index v }

def setThread (r : ThreadRef) (t : Thread) : Run Unit :=
  modify fun m => { m with threads := m.threads.setIfInBounds r.index t }

def setContext (r : ContextRef) (c : Context) : Run Unit :=
  modify fun m => { m with contexts := m.contexts.setIfInBounds r.index c }

def note (line : LogLine) : Run Unit := modify (·.noted line)

/-- A global variable. -/
def global (name : String) : Run Value := do
  let m ← get
  return (m.table m.globals).get (.text name)

def setGlobal (name : String) (v : Value) : Run Unit := do
  setRaw (← get).globals (.text name) v

/-- A new error object. -/
def newFault (f : Fault) : Run Value :=
  modifyGet fun m => (.fault m.faults f, { m with faults := m.faults + 1 })

/-! ## Exchange with the host -/

/-- The JSON of a value; a refusal is raised, and what was registered stays. -/
def leave (location : Location) (v : Value) : Run (Except Invalid Json) :=
  modifyGet fun m =>
    match toJson m.heap location v m.registry with
    | .ok j registry => (.ok j, { m with registry })
    | .error e registry => (.error e, { m with registry })

/-- The value of a JSON value. -/
def enter (v : Json) : Run Value :=
  modifyGet fun m =>
    let (value, heap) := ofJson m.registry v m.heap
    (value, { m with heap })

end GuildPlan.Script
