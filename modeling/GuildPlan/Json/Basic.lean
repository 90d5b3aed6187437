import GuildPlan.KeyMap
import GuildPlan.Number.Double

/-
  Values of the JSON data model.

  An object is a list of members. It is canonical when the keys strictly increase in code
  point order, which is also the order of their bytes; every object that this library makes
  from script values or reads from text is canonical, and the written form of an entity
  keeps its own order of members instead.
-/
namespace GuildPlan

inductive Json
  | null
  | bool (b : Bool)
  | int (n : Int)
  | float (x : Double)
  | str (s : String)
  | arr (items : List Json)
  | obj (members : List (String × Json))
  deriving Inhabited

/-- The members of an object. -/
abbrev Members := List (String × Json)

namespace Members

def keys (ms : Members) : List String := ms.map Prod.fst

def get? (ms : Members) (key : String) : Option Json := ms.lookup key

/-- Puts members in order of their keys; the last of several with one key stays. -/
def ofList (ms : List (String × Json)) : Members :=
  ms.foldl (fun acc m => insertEntry m.1 m.2 acc) []

/-- The members whose keys are not among `known`. -/
def without (known : List String) (ms : Members) : Members :=
  ms.filter fun m => !known.contains m.1

end Members

namespace Json

def isNull : Json → Bool
  | .null => true
  | _ => false

/-- An integer that fits in 64 bits without a sign. -/
def unsigned? : Json → Option Nat
  | .int n => if 0 ≤ n ∧ n < Nat.pow 2 64 then some n.toNat else none
  | _ => none

/-- The name of a value's type in messages, functions aside. -/
def typeName : Json → String
  | .null => "nil"
  | .bool _ => "boolean"
  | .int _ | .float _ => "number"
  | .str _ => "string"
  | .arr _ => "list"
  | .obj _ => "table"

end Json
end GuildPlan
