import GuildPlan.Script.Machine

/-
  What values do when something is asked of them, with the metatables that stand behind
  tables.

  The answer to a question may be left to a handler in a metatable. For fields a handler is
  either a function, which is called, or a value that is asked instead; such a chain may be
  long, but not endless. All strings have the same metatable behind them.
-/
namespace GuildPlan.Script

/-- What a question to a value comes to. -/
inductive Answer
  | value (v : Value)
  /-- The answer is what a handler gives for these arguments. -/
  | handler (h : Value) (args : List Value)
  | refusal (message : ByteArray)

def Answer.refused (message : String) : Answer := .refusal message.toUTF8

namespace Machine

/-- What a table itself holds under a key. -/
def own (m : Machine) (subject key : Value) : Value :=
  match subject with
  | .table r => (m.table r).find key
  | _ => .nil

/-- The handler of some name that stands behind a value, or nil. -/
def handler (m : Machine) (name : String) (v : Value) : Value :=
  match v with
  | .table r =>
    match (m.table r).metatable with
    | some behind => (m.table behind).get (.text name)
    | none => .nil
  | .str _ => (m.table m.strings).get (.text name)
  | _ => .nil

/-- The handler behind the first of two values, or else behind the second. -/
def handlerOfEither (m : Machine) (name : String) (a b : Value) : Value :=
  match m.handler name a with
  | .nil => m.handler name b
  | h => h

/-- The word for a value where what stands behind it may name it. -/
def namedKind (m : Machine) (v : Value) : ByteArray :=
  match m.handler "__name" v with
  | .str name => name
  | _ => v.scriptType.toUTF8

/-- The word for a value in messages about it; of strings nothing but that counts. -/
def kindName (m : Machine) (v : Value) : ByteArray :=
  match v with
  | .str _ => v.scriptType.toUTF8
  | v => m.namedKind v

/-- The message about something that cannot be done to a value. -/
def incapable (m : Machine) (what : String) (v : Value) : ByteArray :=
  ("attempt to " ++ what ++ " a ").toUTF8 ++ m.kindName v ++ " value".toUTF8

/-- The most handlers that one access may go through. -/
def chainLimit : Nat := 2000

/-- The field of a value, through at most so many handlers. -/
def lookWithin (m : Machine) (key : Value) (fuel : Nat) (subject : Value) : Answer :=
  match m.own subject key with
  | .nil =>
    match fuel with
    | 0 => .refused "'__index' chain too long; possible loop"
    | fuel + 1 =>
      match subject, m.handler "__index" subject with
      | .table _, .nil => .value .nil
      | v, .nil => .refusal (m.incapable "index" v)
      | _, .function f => .handler (.function f) [subject, key]
      | _, other => m.lookWithin key fuel other
  | v => .value v

/-- The field of a value. -/
def look (m : Machine) (subject key : Value) : Answer := m.lookWithin key chainLimit subject

/-- The table that a field is written to, found through at most so many handlers. -/
def aimWithin (m : Machine) (key : Value) (fuel : Nat) (subject : Value) : Answer :=
  if m.own subject key ≠ .nil then .value subject
  else
    match fuel with
    | 0 => .refused "'__newindex' chain too long; possible loop"
    | fuel + 1 =>
      match subject, m.handler "__newindex" subject with
      | .table r, .nil => .value (.table r)
      | v, .nil => .refusal (m.incapable "index" v)
      | _, .function f => .handler (.function f) [subject, key]
      | _, other => m.aimWithin key fuel other

/-- The table that the field of a value is written to. -/
def aim (m : Machine) (subject key : Value) : Answer := m.aimWithin key chainLimit subject

/-- Whether two values are equal; two tables may be so by their handler. -/
def compare (m : Machine) (a b : Value) : Answer :=
  match a, b with
  | .table r, .table s =>
    if r = s then .value (.bool true)
    else
      match m.handlerOfEither "__eq" a b with
      | .nil => .value (.bool false)
      | h => .handler h [a, b]
  | _, _ => .value (.bool (a.equals b))

/-- Two strings or numbers in a row, or what a handler makes of other values. -/
def join (m : Machine) (a b : Value) : Answer :=
  match a.bytes?, b.bytes? with
  | some x, some y => .value (.str (x ++ y))
  | x, _ =>
    match m.handlerOfEither "__concat" a b with
    | .nil => .refusal (m.incapable "concatenate" (if x.isSome then b else a))
    | h => .handler h [a, b]

/-- The text of an error object. -/
def faultText (m : Machine) (id : Nat) (f : Fault) : String := f.message ++ m.platform.trace id

/-- The text of a value that no handler puts into words. -/
def plainText (m : Machine) (v : Value) : ByteArray :=
  match v with
  | .nil => "nil".toUTF8
  | .bool b => (if b then "true" else "false").toUTF8
  | .fault id f => (m.faultText id f).toUTF8
  | v =>
    match v.bytes? with
    | some bytes => bytes
    | none => m.namedKind v ++ (": " ++ m.platform.address v).toUTF8

/-- The string that a value is turned into on request. -/
def textOf (m : Machine) (v : Value) : Answer :=
  match m.handler "__tostring" v with
  | .nil => .value (.str (m.plainText v))
  | h => .handler h [v]

/-- What a raised value tells the host. -/
def raised (m : Machine) (v : Value) : Fault :=
  match v with
  | .fault _ f => f
  | v => .ofText (m.plainText v)

/-- What is called in the end when a value is called. -/
inductive Callee
  | function (f : FunctionRef) (args : List Value)
  | refusal (message : ByteArray)

/-- The function behind a value that is called; each handler on the way to it is given the
value that it stands behind as one more argument. -/
def calleeWithin (m : Machine) : Nat → Value → List Value → Callee
  | _, .function f, args => .function f args
  | 0, _, _ => .refusal "stack overflow".toUTF8
  | fuel + 1, v, args =>
    match m.handler "__call" v with
    | .nil => .refusal (m.incapable "call" v)
    | h => m.calleeWithin fuel h (v :: args)

/-- The most arguments that handlers may add to one call. -/
def argumentLimit : Nat := 1000000

def callee (m : Machine) (f : Value) (args : List Value) : Callee :=
  m.calleeWithin argumentLimit f args

end Machine
end GuildPlan.Script
