import GuildPlan.Script.Table

/-
  Script values as JSON, and JSON as script values.

  On the way out every occurrence of a function is entered into the registry and replaced
  by the marker of its handle; on the way in a marker turns into the function again. A
  table whose entries are as many as its length is a list, any other table an object, its
  integer keys written in decimal. The length is whatever border the table has at the time.
  Metatables do not matter.
-/
namespace GuildPlan.Script

/-- The functions that stand behind handles, in the order of their handles. -/
structure Registry where
  functions : List FunctionRef := []

namespace Registry

def get? (g : Registry) (h : Handle) : Option FunctionRef := g.functions[h.index]?

def size (g : Registry) : Nat := g.functions.length

def add (g : Registry) (f : FunctionRef) : Handle × Registry :=
  (⟨g.functions.length⟩, ⟨g.functions ++ [f]⟩)

end Registry

/-- Conversions that may be refused; what they registered until then stays. -/
abbrev Leaving := EStateM Invalid Registry

/-- Tables nested deeper than this are refused. -/
def nestingLimit : Nat := 32

def refuse {α : Type} (location : Location) (constraint : Constraint) : Leaving α :=
  throw ⟨location, constraint⟩

def register (f : FunctionRef) : Leaving Handle :=
  modifyGet (Registry.add · f)

/-- The name of the member that an entry's key becomes. -/
def memberName (location : Location) : Value → Leaving String
  | .str bytes =>
    match Text.ofUtf8? bytes with
    | some key => return key
    | none => refuse location .textKeys
  | .int n => return Text.decimalInt n
  | v => refuse location (.stringKeys v.typeName)

/-- The items of a list, from the index after `n` on. -/
def leaveItems (leave : Location → Value → Leaving Json) (location : Location) (t : Table) :
    Nat → Nat → Leaving (List Json)
  | _, 0 => return []
  | n, more + 1 => do
    let item ← leave (location.item n) (t.get (.int (n + 1 : Nat)))
    return item :: (← leaveItems leave location t (n + 1) more)

/-- The members of an object; of two entries with one name the later one counts. -/
def leaveEntries (leave : Location → Value → Leaving Json) (location : Location) :
    Members → List (Value × Value) → Leaving Members
  | members, [] => return members
  | members, (key, value) :: rest => do
    let name ← memberName location key
    let place := location.field name
    if name = markerKey then refuse place .unreservedKey
    let v ← leave place value
    leaveEntries leave location (insertEntry name v members) rest

/-- The JSON of a value in which tables nest at most so deep. -/
def leaveWithin (h : Heap) : Nat → Location → Value → Leaving Json
  | _, _, .nil | _, _, .null => return .null
  | _, _, .bool b => return .bool b
  | _, _, .int n => return .int n
  | _, location, .float x =>
    if x.isFinite then return .float x else refuse location .finite
  | _, location, .str bytes =>
    match Text.ofUtf8? bytes with
    | some s => return .str s
    | none => refuse location .textValue
  | _, _, .function f => return (← register f).marker
  | 0, location, .table _ => refuse location (.nesting nestingLimit)
  | depth + 1, location, .table r => do
    let t := h.table r
    let length := t.length
    if 0 < length ∧ t.entries.length = length then
      return .arr (← leaveItems (leaveWithin h depth) location t 0 length)
    else return .obj (← leaveEntries (leaveWithin h depth) location [] t.entries)
  | _, location, v => refuse location (.supported v.typeName)

/-- The JSON of a value at a place. -/
def toJson (h : Heap) (location : Location) (v : Value) : Leaving Json :=
  leaveWithin h nestingLimit location v

mutual
/-- The value of a JSON value, its tables new on the heap. -/
def ofJson (g : Registry) : Json → StateM Heap Value
  | .null => return .nil
  | .bool b => return .bool b
  | .int n => return if n < Nat.pow 2 63 then .int n else .float (.ofInt n)
  | .float x => return .float x
  | .str s => return .text s
  | .arr items => do
    let values ← ofItems g items
    return .table (← modifyGet (Heap.add · (Table.ofItems values)))
  | .obj members => do
    match (Json.marker? (.obj members)).bind g.get? with
    | some f => return .function f
    | none =>
      let fields ← ofMembers g members
      return .table (← modifyGet (Heap.add · (Table.ofFields fields)))

def ofItems (g : Registry) : List Json → StateM Heap (List Value)
  | [] => return []
  | v :: vs => do
    let value ← ofJson g v
    return value :: (← ofItems g vs)

def ofMembers (g : Registry) : List (String × Json) → StateM Heap (List (String × Value))
  | [] => return []
  | (key, v) :: rest => do
    let value ← ofJson g v
    return (key, value) :: (← ofMembers g rest)
end

end GuildPlan.Script
