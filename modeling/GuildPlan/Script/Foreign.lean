import GuildPlan.Script.Builtin

/-
  Foreign code at work.

  It waits on the stack like everything else. Whatever is given to it there it has seen from
  then on, and it orders what is to be done next.
-/
namespace GuildPlan.Script

/-! ## What it gets at -/

/-- A value that can be passed on after all that has been seen; nil in place of any other. -/
def passable (seen : List (List Value)) (v : Value) : Value :=
  if v.isPlain || seen.any (·.contains v) then v else .nil

/-- The order with no other values in it than those that can be passed on. -/
def Order.within (seen : List (List Value)) : Order → Order
  | .give vs => .give (vs.map (passable seen))
  | .raise v => .raise (passable seen v)
  | .call f args => .call (passable seen f) (args.map (passable seen))
  | .attempt f args => .attempt (passable seen f) (args.map (passable seen))
  | .text v => .text (passable seen v)
  | .inspect v => .inspect (passable seen v)
  | .put subject key value =>
    .put (passable seen subject) (passable seen key) (passable seen value)
  | .function code captured => .function code (captured.map (passable seen))
  | .resume thread args => .resume (passable seen thread) (args.map (passable seen))
  | .yield vs => .yield (vs.map (passable seen))
  | .close thread => .close (passable seen thread)
  | .refuse level message => .refuse level message
  | .table => .table
  | .present => .present

namespace Machine

/-- What some code orders after all that it has seen. -/
def order (m : Machine) (code : Nat) (seen : List (List Value)) : Order :=
  (m.platform.act m.clock code seen).within seen

/-- The word for how far a thread has come. -/
def threadWord (m : Machine) (r : ThreadRef) (stack : Stack) : String :=
  match m.thread r with
  | .fresh _ | .suspended _ => "suspended"
  | .running => if innermost? stack = some r then "running" else "normal"
  | .dead => "dead"

/-- What is in a value and behind it: of a table its length, its metatable and its entries. -/
def contents (m : Machine) (stack : Stack) : Value → List Value
  | .table r =>
    .int (m.table r).length :: m.behind (.table r) ::
      (m.table r).entries.flatMap fun (key, v) => [key, v]
  | .str bytes => [m.behind (.str bytes)]
  | .thread r => [.text (m.threadWord r stack)]
  | _ => []

end Machine

/-! ## New functions -/

/-- Whether a function is some code without variables of its own. -/
def Callable.isCode (code : Nat) : Callable → Bool
  | .foreign other [] => other = code
  | _ => false

/-- A function of foreign code. Without variables of its own it is the same one every time. -/
def foreignFunction (code : Nat) (captured : List Value) : Run Value := do
  match captured with
  | [] =>
    match (← get).functions.findIdx? (·.isCode code) with
    | some i => return .function ⟨i⟩
    | none => newFunction (.foreign code [])
  | vs => newFunction (.foreign code (← vs.mapM newCell))

/-! ## Orders -/

/-- Leaves the present thread with the code on top of it. -/
def leaveThread (depth : Depth) (code : Nat) (seen : List (List Value)) (vs : List Value)
    (stack : Stack) : Run State := do
  match parted? (← get).platform.waits stack with
  | none => return .refuse "attempt to yield from outside a coroutine" stack
  | some (own, r, below) =>
    setThread r (.suspended (own.push (.foreign depth code seen) rfl))
    return .give vs below

/-- Ends a thread that does not run. -/
def closeThread (r : ThreadRef) (here stack : Stack) : Run State := do
  match (← get).thread r with
  | .running => return .refuse "cannot close a running coroutine" stack
  | _ =>
    setThread r .dead
    return .give [] here

/-- Puts a value under a key of a table, past all handlers. -/
def putRaw (r : TableRef) (key value : Value) (here stack : Stack) : Run State :=
  match key.key? with
  | none => return .refuse key.keyRefusal stack
  | some key => do
    setRaw r key value
    return .give [] here

/-- Does what some code orders; what comes of it is given to the code. -/
def obey (depth : Depth) (code : Nat) (seen : List (List Value)) (stack : Stack) (o : Order) :
    Run State := do
  let here := .foreign depth code seen :: stack
  match o with
  | .give vs => return .give vs stack
  | .raise v => return .raise v stack
  | .refuse level message => return ⟨.refuse level false message, stack⟩
  | .call f args =>
    return .enter depth (if (← get).platform.waits code then 0 else 1) f args here
  | .attempt f args => return .enter depth 1 f args (.guard :: here)
  | .text v => return .answered depth 1 ((← get).textOf v) .text here
  | .inspect v => return .give ((← get).contents stack v) here
  | .table => return .give [.table (← newTable ∅)] here
  | .put (.table r) key value => putRaw r key value here stack
  | .function code captured => return .give [← foreignFunction code captured] here
  | .resume (.thread r) args => resumeThread depth r false args (.guard :: here)
  | .yield vs => leaveThread depth code seen vs stack
  | .close (.thread r) => closeThread r here stack
  | .present =>
    let thread := match innermost? stack with
      | some r => .thread r
      | none => .nil
    return .give [thread, .bool (parted? (← get).platform.waits stack).isSome] here
  | .put _ _ _ | .resume _ _ | .close _ => return .give [] here

/-- Foreign code goes on with what it has seen. -/
def goOn (depth : Depth) (code : Nat) (seen : List (List Value)) (stack : Stack) : Run State := do
  obey depth code seen stack ((← get).order code seen)

end GuildPlan.Script
