import GuildPlan.Script.Document

/-
  What scripts are run on, as far as the language leaves it open or is not modelled here.

  A platform reads files as scripts. It says how objects are told apart in texts, what stands
  in front of a message and behind it, and how entries of tables are arranged from one moment to
  the next. It brings the functions of the language's library that are not modelled, and the
  operators and statements that scripts have no form of their own for: foreign code, which sees
  values and gives orders. Foreign code cannot make up references; it gets at no table, function
  or thread but those that it has been shown.

  A theorem about all platforms covers the interpreter that the scripts meet in the end, whatever
  it does of all this. How deep calls can be nested is the same on all of them.
-/
namespace GuildPlan.Script

/-! ## Foreign code -/

/-- What foreign code wants to be done next. What comes of it is seen before the next order. -/
inductive Order
  /-- Gives values to whoever has called. -/
  | give (vs : List Value)
  | raise (v : Value)
  /-- Raises a message, with its place in front if the function at a level is a script's. -/
  | refuse (level : Nat) (message : ByteArray)
  | call (f : Value) (args : List Value)
  /-- A call that holds back what is raised. -/
  | attempt (f : Value) (args : List Value)
  /-- The text of a value. -/
  | text (v : Value)
  /-- What is in a value and behind it. -/
  | inspect (v : Value)
  /-- A new table. -/
  | table
  /-- Puts a value under a key of a table, past all handlers. -/
  | put (subject key value : Value)
  /-- A new function of some code, with values that it sees first. -/
  | function (code : Nat) (captured : List Value)
  /-- Resumes a thread; what it raises is held back. -/
  | resume (thread : Value) (args : List Value)
  /-- Leaves the present thread until it is resumed. -/
  | yield (vs : List Value)
  /-- Ends a thread that does not run. -/
  | close (thread : Value)
  /-- The present thread, and whether it can be left. -/
  | present

/-- The parts of the language's library. -/
inductive Section
  | base
  | string
  | table
  | math
  | utf8
  | coroutine
  /-- What stands behind strings. -/
  | strings
  deriving DecidableEq

/-- Something in a part of the library. -/
inductive Offer
  | code (n : Nat)
  | value (v : Value)

/-- A way to arrange tables. -/
structure Arrangement where
  arrange : Table → Table
  rearranged : ∀ t : Table, t.Rearranged (arrange t)

/-- A value that is no reference and no error object, so that it can be made anywhere. -/
def Value.isPlain : Value → Bool
  | .nil | .bool _ | .int _ | .float _ | .str _ => true
  | _ => false

/-! ## Platforms -/

structure Platform where
  /-- The script that a file holds, if it holds one. -/
  read : ByteArray → Source := Source.ofBytes
  /-- What tells an object apart from others of its type. -/
  address : Value → String := fun v =>
    match v with
    | .table r => Text.decimal r.index
    | .function r => Text.decimal r.index
    | .thread r => Text.decimal r.index
    | _ => ""
  /-- What follows the message of an error object, by the number of the object. -/
  trace : Nat → String := fun _ => ""
  /-- The place in front of a message at a time. -/
  place : Nat → String := fun _ => "?.lua:0: "
  /-- A message of the language as it is worded at a time. -/
  word : Nat → ByteArray → ByteArray := fun _ message => message
  /-- The tables that are arranged anew at a time. -/
  stir : Nat → List (TableRef × Arrangement) := fun _ => []
  library : Section → List (String × Offer) := fun s =>
    if s = .base then [("collectgarbage", .code 0)] else []
  /-- What some code orders at a time after all that it has seen. -/
  act : Nat → Nat → List (List Value) → Order := fun _ _ _ => .give [.int 0]
  /-- Whether some code can wait in a thread that has been left. -/
  waits : Nat → Bool := fun _ => false

/-- A platform on which nothing is arranged anew, objects are numbered and no place in a script
is known. Its scripts are JSON documents, and of the library it has nothing but a collector that
finds nothing to collect. -/
def Platform.plain : Platform := {}

end GuildPlan.Script
