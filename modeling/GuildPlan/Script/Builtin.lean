import GuildPlan.Script.Stack

/-
  The functions of the language that are modelled. All other functions of its library are foreign
  code: whatever they are, they work with orders.
-/
namespace GuildPlan.Script

/-! ## Arguments -/

/-- The word for an argument in messages about its type. -/
def Machine.argumentKind (m : Machine) : Option Value → ByteArray
  | none => "no value".toUTF8
  | some .null => "light userdata".toUTF8
  | some v => m.namedKind v

/-- Refuses an argument of a function; the arguments count from one. -/
def refuseArgument (index : Nat) (function : String) (why : ByteArray) (stack : Stack) : State :=
  .refuseAt 1 (("bad argument #" ++ Text.decimal index ++ " to '" ++ function ++ "' (").toUTF8 ++
    why ++ ")".toUTF8) stack

/-- Refuses that an argument is missing. -/
def refuseMissing (function : String) (stack : Stack) : State :=
  refuseArgument 1 function "value expected".toUTF8 stack

/-- Refuses an argument of a function for its type. -/
def refuseType (m : Machine) (args : List Value) (index : Nat) (function expected : String)
    (stack : Stack) : State :=
  refuseArgument index function
    ((expected ++ " expected, got ").toUTF8 ++ m.argumentKind args[index - 1]?) stack

/-! ## Raising -/

/-- Raises what a script asks to raise. A string gets the place in front of the function at
a level, if there is one. -/
def raiseAt (level : Nat) (v : Value) (stack : Stack) : State :=
  match v with
  | .str bytes => ⟨.refuse level false bytes, stack⟩
  | v => .raise v stack

def runError (m : Machine) (args : List Value) (stack : Stack) : State :=
  match args[1]?.getD .nil with
  | .nil => raiseAt 1 (first args) stack
  | level =>
    match level.integer?, level.number? with
    | some n, _ => raiseAt n.toNat (first args) stack
    | none, some _ =>
      refuseArgument 2 "error" "number has no integer representation".toUTF8 stack
    | none, none => refuseType m args 2 "error" "number" stack

def runAssert (args : List Value) (stack : Stack) : State :=
  match args with
  | [] => refuseMissing "assert" stack
  | v :: rest =>
    if v.truthy then .give args stack
    else raiseAt 1 (rest.headD (.text "assertion failed!")) stack

/-! ## Text -/

/-- Takes the text that a handler has made of a value. -/
def takeText (vs : List Value) (stack : Stack) : State :=
  match (first vs).bytes? with
  | some bytes => .give [.str bytes] stack
  | none => .refuse "'__tostring' must return a string" stack

/-- Where bytes were needed as text but are none. -/
def conversionError (wanted : String) (e : Text.Utf8Error) : String :=
  "error converting Lua string to " ++ wanted ++ " (" ++ e.message ++ ")"

/-- What a value is in a printed line. -/
def Machine.printed (m : Machine) (v : Value) : Answer :=
  match v with
  | .float x => .value (.text (Value.printedLayout.write x))
  | .null => .value (.text "null")
  | .str bytes => .value (.str bytes)
  | v => m.textOf v

/-- Logs values in one line, given the texts of those that came before, the last first. -/
def print (depth : Depth) (texts : List String) (rest : List Value) (stack : Stack) :
    Run State :=
  match rest with
  | [] => do
    note (.debug ("script: " ++ "\t".intercalate texts.reverse))
    return .give [] stack
  | v :: rest => do
    match (← get).printed v with
    | .value v =>
      match Text.ofUtf8 (v.bytes?.getD .empty) with
      | .ok s => print depth (s :: texts) rest stack
      | .error e => raiseFault (.text (conversionError "&str" e)) stack
    | .handler h args =>
      return .enter depth 2 h args
        (.text :: .host depth :: .printing depth texts rest :: stack)
    | .refusal message => return .refuseAt 1 message stack

/-- Goes on with a line once the text of a value in it is there. -/
def printMore (depth : Depth) (texts : List String) (rest vs : List Value) (stack : Stack) :
    Run State :=
  match Text.ofUtf8 ((first vs).bytes?.getD .empty) with
  | .ok s => print depth (s :: texts) rest stack
  | .error e => raiseFault (.text (conversionError "&str" e)) stack

/-! ## Metatables and threads -/

/-- What stands behind a value, or nil. -/
def Machine.behind (m : Machine) (v : Value) : Value :=
  match v with
  | .table r =>
    match (m.table r).metatable with
    | some behind => .table behind
    | none => .nil
  | .str _ => .table m.strings
  | _ => .nil

/-- What stands behind a value as far as scripts are shown it: a `__metatable` field in place of
the table that it is in, and of error objects only that something does. -/
def Machine.shownBehind (m : Machine) (v : Value) : Value :=
  match v with
  | .fault _ _ => .bool false
  | v =>
    match m.handler "__metatable" v with
    | .nil => m.behind v
    | shown => shown

/-- Sets or takes away a table's metatable. One with a `__metatable` field stays as it is. -/
def changeMetatable (r : TableRef) (metatable : Option TableRef) (stack : Stack) :
    Run State := do
  if (← get).handler "__metatable" (.table r) ≠ .nil then
    return .refuse "cannot change a protected metatable" stack
  setMetatable r metatable
  return .give [.table r] stack

def runSetMetatable (args : List Value) (stack : Stack) : Run State := do
  match args with
  | .table r :: .nil :: _ => changeMetatable r none stack
  | .table r :: .table behind :: _ => changeMetatable r (some behind) stack
  | .table _ :: _ => return refuseType (← get) args 2 "setmetatable" "nil or table" stack
  | _ => return refuseType (← get) args 1 "setmetatable" "table" stack

def runCreateThread (args : List Value) (stack : Stack) : Run State := do
  match args with
  | .function f :: _ => return .give [.thread (← newThread (.function f))] stack
  | _ => return refuseType (← get) args 1 "coroutine.create" "function" stack

def runWrapThread (args : List Value) (stack : Stack) : Run State := do
  match args with
  | .function f :: _ =>
    let r ← newThread (.function f)
    return .give [← newFunction (.resume r)] stack
  | _ => return refuseType (← get) args 1 "coroutine.wrap" "function" stack

/-- Runs a thread from its beginning, or from where it has been left. -/
def resumeThread (depth : Depth) (r : ThreadRef) (placed : Bool) (args : List Value)
    (stack : Stack) : Run State := do
  match (← get).thread r with
  | .running => return .refuse "cannot resume non-suspended coroutine" stack
  | .dead => return .refuse "cannot resume dead coroutine" stack
  | .fresh body =>
    setThread r .running
    return .enter depth 1 body args (.thread r placed :: stack)
  | .suspended own =>
    match depth.run? 1 with
    | none => return .refuse "C stack overflow" stack
    | some _ =>
      setThread r .running
      return .give args (own.frames ++ .thread r placed :: stack)

/-! ## All of them -/

def runBuiltin (depth : Depth) (args : List Value) (stack : Stack) : Builtin → Run State
  | .print => print depth [] args stack
  | .type =>
    match args with
    | [] => return refuseMissing "type" stack
    | v :: _ => return .give [.text v.scriptType] stack
  | .tostring => do
    match args with
    | [] => return refuseMissing "tostring" stack
    | v :: _ => return .answered depth 1 ((← get).textOf v) .text stack
  | .pcall =>
    match args with
    | [] => return .raise (.text "not enough arguments to pcall") stack
    | f :: rest => return .enter depth 1 f rest (.guard :: stack)
  | .error => return runError (← get) args stack
  | .assert => return runAssert args stack
  | .setmetatable => runSetMetatable args stack
  | .getmetatable => do
    match args with
    | [] => return refuseMissing "getmetatable" stack
    | v :: _ => return .give [(← get).shownBehind v] stack
  | .createThread => runCreateThread args stack
  | .wrapThread => runWrapThread args stack

end GuildPlan.Script
