import GuildPlan.Mount.Table
import GuildPlan.Script.Chunk
import GuildPlan.Script.Counting
import GuildPlan.Script.Table

/-
  What waits for something while scripts run: the frames of the stack.

  A thread that has yielded keeps the frames of its own in the same form.
-/
namespace GuildPlan.Script

structure CellRef where
  index : Nat
  deriving DecidableEq

/-- The local variables in sight, innermost first. -/
abbrev Scope := List (String × CellRef)

/-! ## Where code runs -/

/-- How deep calls are nested: calls of script functions by each other, and runs, which are
calls that a handler, a thread, a protected call or the host makes. -/
structure Depth where
  calls : Nat
  runs : Nat

namespace Depth

def callLimit : Nat := 200000
def runLimit : Nat := 200

/-- The most runs below which what handlers raise is still handled. -/
def handlingLimit : Nat := 220

/-- The depth of a run below so many others. -/
def run? (d : Depth) (more : Nat) : Option Depth :=
  if d.runs + more < runLimit then some { d with runs := d.runs + more } else none

/-- The depth of a call of a script function. -/
def call? (d : Depth) : Option Depth :=
  if d.calls < callLimit then some { d with calls := d.calls + 1 } else none

end Depth

/-- The place of some code: the variables of its function, those of the functions around it,
and its depth. -/
structure Site where
  locals : Scope := []
  captured : Scope := []
  depth : Depth

namespace Site

def scope (site : Site) : Scope := site.locals ++ site.captured

def find? (site : Site) (name : String) : Option CellRef :=
  site.locals.lookup name <|> site.captured.lookup name

/-- The variable of the function itself that an expression names, if it is one. -/
def ownVariable? (site : Site) : Expr → Option CellRef
  | .var name => site.locals.lookup name
  | _ => none

end Site

/-! ## What waits -/

/-- A value that something is done with. -/
inductive Operand
  | value (v : Value)
  /-- The value of a variable when it is used, which may be later than when it is named. -/
  | variable (r : CellRef)

/-- What is done once the values of some expressions are there. -/
inductive Action
  | index
  | call
  /-- A call that takes the place of the function that makes it. -/
  | tailCall
  | equal
  | concat
  | negate
  | both (b : Expr)
  | either (b : Expr)
  /-- Makes a table of positional items, to be filled with keyed entries. -/
  | items (entries : List (Expr × Expr))
  /-- Puts an entry into a table of `count` items that nobody else has got yet. -/
  | entry (t : Table) (count : Nat) (rest : List (Expr × Expr))
  /-- Carries out foreign code. -/
  | native (code : Nat)
  | declare (names : List String)
  | assign (name : String)
  | set
  | answer
  | choose (yes no : Block)
  | count (name : String) (body : Block)
  | dump (label : String)

namespace Action

/-- Whether all values of the last expression count, and not only the first of them. -/
def spreads : Action → Bool
  | .call | .tailCall | .native _ | .declare _ | .answer => true
  | .items entries => entries.isEmpty
  | _ => false

/-- How many of the first operands are read late if they are variables. -/
def late : Action → Nat
  | .index | .equal | .entry _ _ _ => 1
  | .set => 2
  | _ => 0

end Action

/-- How far the loading of a module has come. -/
inductive Loading
  /-- The table of loaded modules is asked for. -/
  | loaded
  /-- The module is asked for in that table. -/
  | cached (modules : Value)
  /-- The module runs. -/
  | running (modules : Value)
  /-- The value of the module is written into the table. -/
  | storing (v : Value)

/-- What is loaded, from where, and at which depth. -/
structure Request where
  scripts : MountTable Source
  name : String
  depth : Depth

/-- What waits for values, for the end of a statement or for a function to return. -/
inductive Frame
  /-- Operands found so far, the last one first, and expressions that follow the present
  one. -/
  | operands (site : Site) (action : Action) (found : List Operand) (rest : List Expr)
  /-- Takes the first value. -/
  | one
  /-- Takes whether the first value is true. -/
  | truth
  /-- Takes no value; a statement is over. -/
  | statement (site : Site)
  /-- Statements that follow the present one. -/
  | rest (block : Block)
  /-- The end of an inner block. -/
  | scoped (site : Site)
  | loop (site : Site) (name : String) (body : Block) (counting : Counting)
  /-- A script function. -/
  | body
  /-- A protected call. -/
  | guard
  /-- A thread, and whether what it raises is told with the place of whoever resumed it. -/
  | thread (r : ThreadRef) (placed : Bool)
  /-- The conversion of a value to text by a handler. -/
  | text
  | printing (depth : Depth) (texts : List String) (rest : List Value)
  | loading (request : Request) (stage : Loading)
  /-- Foreign code, with all that it has seen so far. -/
  | foreign (depth : Depth) (code : Nat) (seen : List (List Value))
  /-- The host, for which everything that is raised becomes an error object. -/
  | host (depth : Depth)
  /-- The conversion of a raised value to the message of an error object. -/
  | message (depth : Depth)

abbrev Stack := List Frame

/-! ## Levels -/

/-- Whether a frame is a function of the language or of the host. -/
def Frame.isNative : Frame → Bool
  | .guard | .text | .printing _ _ _ | .loading _ _ | .foreign _ _ _ => true
  | _ => false

/-- Whether the function so many levels up, the present one being the first, is a script's.
The functions of a thread do not reach beyond it. -/
def scriptAt : Nat → Stack → Bool
  | 0, _ | _, [] | _, .thread _ _ :: _ => false
  | level + 1, .body :: stack => level = 0 || scriptAt level stack
  | level + 1, f :: stack =>
    if f.isNative then scriptAt level stack else scriptAt (level + 1) stack

/-- The frames from the present script function on. -/
def enclosing : Stack → Stack
  | [] => []
  | .body :: stack => .body :: stack
  | _ :: stack => enclosing stack

/-! ## Threads -/

/-- Whether a thread can never be left while a frame of it waits. -/
def Frame.isPinned : Frame → Bool
  | .guard | .text | .printing _ _ _ | .loading _ _ | .host _ | .message _ => true
  | _ => false

/-- Whether a frame is one of foreign code in which a thread cannot be left; the platform says
which can wait so long. -/
def Frame.isUrgent (waits : Nat → Bool) : Frame → Bool
  | .foreign _ code _ => !waits code
  | _ => false

/-- The frames of a thread that has been left. -/
structure Suspension where
  frames : Stack
  unpinned : ∀ f ∈ frames, f.isPinned = false

namespace Suspension

def empty : Suspension := ⟨[], List.forall_mem_nil _⟩

/-- With one more frame on top. -/
def push (s : Suspension) (f : Frame) (unpinned : f.isPinned = false) : Suspension :=
  ⟨f :: s.frames, List.forall_mem_cons.2 ⟨unpinned, s.unpinned⟩⟩

end Suspension

/-- The innermost thread of a stack. -/
def innermost? : Stack → Option ThreadRef
  | [] => none
  | .thread r _ :: _ => some r
  | _ :: stack => innermost? stack

/-- The frames of the innermost thread, the thread, and the frames of whoever resumed it, if the
thread can be left. -/
def parted? (waits : Nat → Bool) : Stack → Option (Suspension × ThreadRef × Stack)
  | [] => none
  | .thread r _ :: stack => some (.empty, r, stack)
  | f :: stack =>
    if unpinned : f.isPinned = false then
      if f.isUrgent waits then none
      else (parted? waits stack).map fun (own, r, below) => (own.push f unpinned, r, below)
    else none

/-- The frames of a thread that can be left are those above it. -/
theorem parted?_eq {waits : Nat → Bool} {stack below : Stack} {own : Suspension} {r : ThreadRef}
    (parts : parted? waits stack = some (own, r, below)) :
    ∃ placed, stack = own.frames ++ .thread r placed :: below := by
  induction stack generalizing own with
  | nil => cases parts
  | cons f stack ih =>
    by_cases thread : ∃ r' placed, f = .thread r' placed
    · obtain ⟨r', placed, rfl⟩ := thread
      cases parts
      exact ⟨placed, rfl⟩
    · rw [parted?] at parts
      · split at parts
        · split at parts
          · cases parts
          · obtain ⟨⟨own', r', below'⟩, further, same⟩ := Option.map_eq_some_iff.1 parts
            cases same
            obtain ⟨placed, rfl⟩ := ih further
            exact ⟨placed, rfl⟩
        · cases parts
      · exact fun r' placed same => thread ⟨r', placed, same⟩

end GuildPlan.Script
