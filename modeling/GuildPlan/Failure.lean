import GuildPlan.Snowflake
import GuildPlan.Predicate

/-
  What can go wrong, by cause, and the one wording of each cause.
-/
namespace GuildPlan

/-- One step from a value into a part of it. -/
inductive Step
  | field (key : String)
  | item (index : Nat)
  deriving DecidableEq

/-- A place in the argument of a declaration: the name of what was called, then the steps
into its argument. -/
structure Location where
  root : String
  steps : List Step := []
  deriving DecidableEq

namespace Location

def field (l : Location) (key : String) : Location := { l with steps := l.steps ++ [.field key] }
def item (l : Location) (index : Nat) : Location := { l with steps := l.steps ++ [.item index] }

def stepText : Step → String
  | .field key => "." ++ key
  | .item index => "[" ++ Text.decimal index ++ "]"

def text (l : Location) : String := l.root ++ String.join (l.steps.map stepText)

end Location

/-- What a declaration's argument was expected to satisfy at some place. -/
inductive Constraint
  | required (expected : String)
  | typed (expected got : String)
  | snowflake (got : String)
  | nonBlank
  | nonNegative
  | bitset
  | knownBits (bits : Nat)
  | color
  | choice (choices got : String)
  | sameKind
  | knownField (known : List String)
  | uniqueId (id : Snowflake)
  | notCategoryId (id : Snowflake)
  | unusedId (id : Snowflake)
  | setting (got : String)
  | openContext
  | finite
  | textValue
  | nesting (limit : Nat)
  | supported (type : String)
  | textKeys
  | stringKeys (got : String)
  | unreservedKey
  deriving DecidableEq

def Constraint.message : Constraint → String
  | .required expected => "required field is missing (expected " ++ expected ++ ")"
  | .typed expected got => "expected " ++ expected ++ ", got " ++ got
  | .snowflake got =>
    "expected a snowflake id (non-zero decimal string or integer), got " ++ got
  | .nonBlank => "expected a non-empty string"
  | .nonNegative => "expected a non-negative integer"
  | .bitset => "expected a non-negative integer bitset"
  | .knownBits bits => "bitset " ++ Text.decimal bits ++ " contains unknown permission bits"
  | .color => "expected an RGB integer or \"#RRGGBB\""
  | .choice choices got => "expected one of " ++ choices ++ ", got \"" ++ got ++ "\""
  | .sameKind => "does not match the capability it was declared with"
  | .knownField known =>
    "unknown field (expected one of: " ++ ", ".intercalate known ++ ")"
  | .uniqueId id => "duplicate id " ++ id.text ++ " in this list"
  | .notCategoryId id => "id " ++ id.text ++ " is already used by the category itself"
  | .unusedId id => "id " ++ id.text ++ " is already declared"
  | .setting got =>
    "expected \"allow\", \"deny\", \"inherit\", true or false, got " ++ got
  | .openContext => "setup context is closed; declarations must be made while setup runs"
  | .finite => "expected a finite number"
  | .textValue => "expected UTF-8 text"
  | .nesting limit => "tables nested deeper than " ++ Text.decimal limit ++ " levels"
  | .supported type => "unsupported value of type " ++ type
  | .textKeys => "table keys must be UTF-8 text"
  | .stringKeys got => "table keys must be strings, got " ++ got
  | .unreservedKey => "reserved key; pass a function to declare a predicate"

/-- A declaration that was refused: where, and what was expected there. -/
structure Invalid where
  location : Location
  constraint : Constraint
  deriving DecidableEq

def Invalid.message (e : Invalid) : String :=
  "invalid `" ++ e.location.text ++ "`: " ++ e.constraint.message

/-- How the value that an entry script returned differs from an id and a setup function. -/
inductive ShapeError
  | notTable (got : String)
  | idUnreadable (message : String)
  | idNotString (got : String)
  | idNotText
  | idBlank
  | setupUnreadable (message : String)
  | setupNotFunction (got : String)
  deriving DecidableEq

def ShapeError.message : ShapeError → String
  | .notTable got => "expected a table with `id` and `setup`, got " ++ got
  | .idUnreadable message => "`id` could not be read: " ++ message
  | .idNotString got => "`id` must be a string, got " ++ got
  | .idNotText => "`id` is not valid UTF-8"
  | .idBlank => "`id` must not be empty"
  | .setupUnreadable message => "`setup` could not be read: " ++ message
  | .setupNotFunction got => "`setup` must be a function, got " ++ got

/-- Why a compilation, or a step of one, has no result. -/
inductive Failure
  | missingVariable (name : String)
  | invalid (e : Invalid)
  | shape (e : ShapeError)
  | script (message : String)
  | missingEntry (path : String)
  | badSnowflake (value : String) (why : Text.UnsignedError)
  | unpreparedInterpreter (message : String)
  | danglingHandle (h : Handle)
  | unknownPermission (key : String)
  deriving DecidableEq

def Failure.message : Failure → String
  | .missingVariable name => "Missing required environment variable: " ++ name
  | .invalid e => e.message
  | .shape e => "entry script returned an invalid value: " ++ e.message
  | .script message => message
  | .missingEntry path => "Entry script not found: " ++ path
  | .badSnowflake value why =>
    "Failed to parse snowflake from String '" ++ value ++ "': " ++ why.message
  | .unpreparedInterpreter message => "Failed to prepare script interpreter: " ++ message
  | .danglingHandle h => "Unknown predicate handle " ++ Text.decimal h.index
  | .unknownPermission key => "Unknown permission key '" ++ key ++ "'"

end GuildPlan
