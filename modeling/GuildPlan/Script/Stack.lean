import GuildPlan.Script.Access

/-
  The state of a running script: what is to be done next, and the stack of what waits for
  it.

  Nothing is done in the middle of something else. An expression, a call or a handler that
  has to come first is put on top of the stack, so scripts can nest as deep as the limits
  of `Depth` say, and a value that is raised takes frames away until one of them holds it back.
-/
namespace GuildPlan.Script

/-- What is to be done next. -/
inductive Control
  | run (site : Site) (block : Block)
  | evaluate (site : Site) (e : Expr)
  /-- Finds more operands. -/
  | find (site : Site) (action : Action) (found : List Operand) (rest : List Expr)
  | call (depth : Depth) (tail : Bool) (f : Value) (args : List Value)
  /-- Gives values to what waits for them. -/
  | give (vs : List Value)
  /-- Goes on after a statement. -/
  | next (site : Site)
  /-- Returns from the present function. -/
  | leave (vs : List Value)
  | raise (v : Value)
  /-- Raises a message, with its place in front if the function at a level is a script's. Those
  of the language are worded by the platform. -/
  | refuse (level : Nat) (own : Bool) (message : ByteArray)

structure State where
  control : Control
  stack : Stack

/-! ## States to go on with -/

namespace State

def give (vs : List Value) (stack : Stack) : State := ⟨.give vs, stack⟩

def raise (v : Value) (stack : Stack) : State := ⟨.raise v, stack⟩

/-- Finds the operands of an action. -/
def start (site : Site) (action : Action) (operands : List Expr) (stack : Stack) : State :=
  ⟨.find site action [] operands, stack⟩

/-- Raises a message of the language. -/
def refuseAt (level : Nat) (message : ByteArray) (stack : Stack) : State :=
  ⟨.refuse level true message, stack⟩

/-- Raises a message about what the present function does. -/
def refuse (message : String) (stack : Stack) : State := refuseAt 1 message.toUTF8 stack

/-- Calls a value in a run of its own, below so many others. -/
def enter (depth : Depth) (runs : Nat) (f : Value) (args : List Value) (stack : Stack) :
    State :=
  match depth.run? runs with
  | some depth => ⟨.call depth false f args, stack⟩
  | none => refuse "C stack overflow" stack

/-- Goes on with an answer. What a handler gives goes to the frame on top of it. -/
def answered (depth : Depth) (runs : Nat) (a : Answer) (top : Frame) (stack : Stack) : State :=
  match a with
  | .value v => give [v] stack
  | .handler h args => enter depth runs h args (top :: stack)
  | .refusal message => refuseAt 1 message stack

end State

/-- What is raised to refuse something. -/
def Machine.refusal (m : Machine) (level : Nat) (own : Bool) (message : ByteArray)
    (stack : Stack) : Value :=
  let message := if own then m.platform.word m.clock message else message
  .str (if scriptAt level stack then (m.platform.place m.clock).toUTF8 ++ message else message)

/-- Raises a new error object. -/
def raiseFault (f : Fault) (stack : Stack) : Run State :=
  return .raise (← newFault f) stack

end GuildPlan.Script
