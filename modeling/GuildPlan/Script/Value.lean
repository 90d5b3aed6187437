import GuildPlan.Failure
import GuildPlan.Number.Layout
import GuildPlan.Text.Utf8

/-
  The values of a script.

  Tables, functions and threads are known by references; what they refer to is kept by the
  interpreter. Strings are bytes.
-/
namespace GuildPlan.Script

structure TableRef where
  index : Nat
  deriving DecidableEq

structure FunctionRef where
  index : Nat
  deriving DecidableEq

structure ThreadRef where
  index : Nat
  deriving DecidableEq

/-- What an error object tells: a declaration that was refused, or a message. -/
inductive Fault
  | invalid (e : Invalid)
  | text (message : String)
  deriving DecidableEq

def Fault.message : Fault → String
  | .invalid e => e.message
  | .text message => message

/-- Bytes are compared in one way, whatever other libraries are in sight. -/
instance (priority := high) instDecidableEqBytes : DecidableEq ByteArray := ByteArray.instDecidableEq

inductive Value
  | nil
  | bool (b : Bool)
  | int (n : Int)
  | float (x : Double)
  | str (bytes : ByteArray)
  | table (r : TableRef)
  | function (r : FunctionRef)
  | thread (r : ThreadRef)
  /-- An error object, numbered apart from the others. -/
  | fault (id : Nat) (f : Fault)
  /-- A value of the host that stands for JSON's null inside a table. -/
  | null
  deriving DecidableEq

instance : Inhabited Value := ⟨.nil⟩

/-- The first of several values, or nil. -/
def first (vs : List Value) : Value := vs.headD .nil

namespace Value

def text (s : String) : Value := .str s.toUTF8

def truthy : Value → Bool
  | .nil | .bool false => false
  | _ => true

/-- The name of a value's type in messages. -/
def typeName : Value → String
  | .nil => "nil"
  | .bool _ => "boolean"
  | .int _ => "integer"
  | .float _ => "number"
  | .str _ => "string"
  | .table _ => "table"
  | .function _ => "function"
  | .thread _ => "thread"
  | .fault _ _ => "error"
  | .null => "lightuserdata"

/-- The name of a value's type in scripts. -/
def scriptType : Value → String
  | .int _ | .float _ => "number"
  | .fault _ _ | .null => "userdata"
  | v => v.typeName

/-- Whether an integer fits in 64 bits with a sign, as those of scripts do. -/
def fitsInteger (n : Int) : Bool := -(Nat.pow 2 63) ≤ n && n < Nat.pow 2 63

/-- The integer that a float equals, if it fits. -/
def integral? (x : Double) : Option Int := x.toInt?.filter fitsInteger

/-- The value as a key of a table: a float that equals an integer becomes the integer, and
nil and what is not a number are no keys. -/
def key? : Value → Option Value
  | .nil => none
  | .float x =>
    if x.isNaN then none
    else
      match integral? x with
      | some n => some (.int n)
      | none => some (.float x)
  | v => some v

/-- Why a value is no key. -/
def keyRefusal : Value → String
  | .nil => "table index is nil"
  | _ => "table index is NaN"

/-- Equality as scripts see it, numbers by what they denote. -/
def equals : Value → Value → Bool
  | .float x, .float y => x.sameNumber y
  | .int n, .float x | .float x, .int n => integral? x == some n
  | a, b => a == b

/-- Floats have fourteen significant digits, a point if they look like integers, and an
exponent of two digits below the fourth place and from the fifteenth on. -/
def floatLayout : Layout where
  significant := some 14
  plainFrom := some (-4)
  plainBelow := some 14
  pointZero := true
  exponentWidth := 2
  nan := "-nan"
  infinity := "inf"

/-- Printed floats are positional and have no point if they equal an integer. -/
def printedLayout : Layout where
  significant := none
  plainFrom := none
  plainBelow := none
  pointZero := false
  exponentWidth := 1
  nan := "NaN"
  infinity := "inf"

/-- The text of a number. -/
def numberText? : Value → Option String
  | .int n => some (Text.decimalInt n)
  | .float x => some (floatLayout.write x)
  | _ => none

/-- The bytes that a value stands for where a string is needed. -/
def bytes? : Value → Option ByteArray
  | .str bytes => some bytes
  | v => v.numberText?.map String.toUTF8

/-- The bytes before the first zero. -/
def beforeZero (bytes : ByteArray) : ByteArray := ⟨(bytes.toList.takeWhile (· ≠ 0)).toArray⟩

end Value

/-- The fault of a text that is raised to the host; it counts up to the first zero byte. -/
def Fault.ofText (bytes : ByteArray) : Fault :=
  .text ("runtime error: " ++ Text.mendUtf8 (Value.beforeZero bytes))

end GuildPlan.Script
