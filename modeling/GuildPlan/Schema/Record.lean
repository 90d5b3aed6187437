import GuildPlan.Failure
import GuildPlan.Json.Printer
import GuildPlan.Text.Blank

/-
  Reading the fields of a declaration's argument.

  A record is an object at some place of the argument. A field that is null counts as
  absent. The empty list counts as the empty object, and the empty object as the empty
  list, because a script's empty table may be meant as either.
-/
namespace GuildPlan.Schema

abbrev Checked := Except Invalid

def reject {α : Type} (location : Location) (constraint : Constraint) : Checked α :=
  .error ⟨location, constraint⟩

/-- An object being validated, and its place. -/
structure Record where
  location : Location
  members : Members

namespace Record

/-- Takes a value as a record. -/
def ofJson (location : Location) : Json → Checked Record
  | .obj members => .ok ⟨location, members⟩
  | .arr [] => .ok ⟨location, []⟩
  | v => reject location (.typed "a table" v.shownType)

def place (r : Record) (key : String) : Location := r.location.field key

/-- The value of a field that is there and not null. -/
def get? (r : Record) (key : String) : Option Json := (r.members.get? key).filter (!·.isNull)

def mistyped {α : Type} (r : Record) (key expected : String) (got : Json) : Checked α :=
  reject (r.place key) (.typed expected got.shownType)

def missing {α : Type} (r : Record) (key expected : String) : Checked α :=
  reject (r.place key) (.required expected)

/-- Refuses the first field, by key, that is not among `known`. -/
def rejectUnknown (r : Record) (known : List String) : Checked Unit :=
  match r.members.keys.find? (!known.contains ·) with
  | some key => reject (r.place key) (.knownField known)
  | none => .ok ()

/-- The fields that are not among `known`, as they are. -/
def rest (r : Record) (known : List String) : Members := r.members.without known

/-- How a message shows a value that is no id. -/
def shown : Json → String
  | .str s => "\"" ++ s ++ "\""
  | .int n => Text.decimalInt n
  | .float x => Json.numberText x
  | v => v.shownType

/-- The id that a value denotes: a text that reads as one, or an integer. -/
def snowflake? : Json → Option Snowflake
  | .str s => Snowflake.ofText? s
  | v => v.unsigned?.bind Snowflake.ofNat?

def snowflakeAt (location : Location) (v : Json) : Checked Snowflake :=
  match snowflake? v with
  | some id => .ok id
  | none => reject location (.snowflake (shown v))

def optionalSnowflake (r : Record) (key : String) : Checked (Option Snowflake) :=
  match r.get? key with
  | none => .ok none
  | some v => (snowflakeAt (r.place key) v).map some

def snowflake (r : Record) (key : String) : Checked Snowflake :=
  match r.get? key with
  | none => r.missing key "a snowflake id"
  | some v => snowflakeAt (r.place key) v

/-- A text that is not blank. -/
def name (r : Record) (key : String) : Checked String :=
  match r.get? key with
  | none => r.missing key "a non-empty string"
  | some (.str s) => if Text.allBlank s then reject (r.place key) .nonBlank else .ok s
  | some v => r.mistyped key "a string" v

def optionalString (r : Record) (key : String) : Checked (Option String) :=
  match r.get? key with
  | none => .ok none
  | some (.str s) => .ok (some s)
  | some v => r.mistyped key "a string" v

def optionalBool (r : Record) (key : String) : Checked (Option Bool) :=
  match r.get? key with
  | none => .ok none
  | some (.bool b) => .ok (some b)
  | some v => r.mistyped key "a boolean" v

/-- An integer that is not negative; a float is no integer. -/
def optionalUnsigned (r : Record) (key : String) : Checked (Option Nat) :=
  match r.get? key with
  | none => .ok none
  | some v =>
    match v.unsigned? with
    | some n => .ok (some n)
    | none =>
      match v with
      | .int _ | .float _ => reject (r.place key) .nonNegative
      | v => r.mistyped key "a non-negative integer" v

/-- The items of a list; an absent one has none. -/
def list (r : Record) (key : String) : Checked (List Json) :=
  match r.get? key with
  | none => .ok []
  | some (.arr items) => .ok items
  | some (.obj []) => .ok []
  | some v => r.mistyped key "a list" v

/-- The handle of a function. -/
def predicate (r : Record) (key : String) : Checked (Option Handle) :=
  match r.get? key with
  | none => .ok none
  | some v =>
    match v.marker? with
    | some h => .ok (some h)
    | none => r.mistyped key "a function" v

/-- The kind that a field names. A kind that is expected need not be named, and no other
kind may be. -/
def kind {κ : Type} [DecidableEq κ] (r : Record) (key : String) (expected : Option κ)
    (ofText? : String → Option κ) (choices : String) : Checked κ :=
  match r.get? key with
  | none =>
    match expected with
    | some k => .ok k
    | none => r.missing key choices
  | some (.str s) =>
    match ofText? s with
    | none => reject (r.place key) (.choice choices s)
    | some given =>
      if expected.all (· = given) then .ok given else reject (r.place key) .sameKind
  | some v => r.mistyped key choices v

end Record

/-- Reads each value of a list at its place, up to the first that is refused. -/
def readItems {α : Type} (read : Location → Json → Checked α) (location : Location) :
    Nat → List Json → Checked (List α)
  | _, [] => .ok []
  | index, v :: vs => do
    let x ← read (location.item index) v
    let xs ← readItems read location (index + 1) vs
    return x :: xs

/-- The first id that occurs before it or in `seen`, with its position. -/
def firstRepeat (seen : List Snowflake) : Nat → List Snowflake → Option (Nat × Snowflake)
  | _, [] => none
  | index, id :: ids =>
    if id ∈ seen then some (index, id) else firstRepeat (id :: seen) (index + 1) ids

/-- Refuses the first id of a list that occurs twice. -/
def requireUnique (location : Location) (ids : List Snowflake) : Checked Unit :=
  match firstRepeat [] 0 ids with
  | some (index, id) => reject ((location.item index).field "id") (.uniqueId id)
  | none => .ok ()

/-- A declaration of which only the kind and the id were checked. -/
structure OpenEntity where
  kind : String
  id : Option Snowflake
  extra : Members

namespace OpenEntity

/-- The members of the written form, in their order; no id is left out. -/
def fields (e : OpenEntity) : Members :=
  [("type", Json.str e.kind)] ++ (e.id.map fun id => ("id", Json.str id.text)).toList ++ e.extra

def written (e : OpenEntity) : Json := .obj e.fields
def toScript (e : OpenEntity) : Json := .obj (Members.ofList e.fields)

end OpenEntity
end GuildPlan.Schema
