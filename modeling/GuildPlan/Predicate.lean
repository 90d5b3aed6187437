import GuildPlan.Json.Basic
import GuildPlan.Text.Unsigned

/-
  Handles of inclusion predicates.

  A function of a script has no JSON form. An object with the single key `$predicate` and
  an unsigned 64-bit number stands in its place, the marker of the handle under which the
  interpreter keeps the function.
-/
namespace GuildPlan

/-- The position of a function in an interpreter's registry. -/
structure Handle where
  index : Nat
  deriving DecidableEq

/-- The reserved key of markers. -/
def markerKey : String := "$predicate"

def Handle.marker (h : Handle) : Json := .obj [(markerKey, .int h.index)]

/-- The handle as it is shown to a reader. -/
def Handle.text (h : Handle) : String := "#" ++ Text.decimal h.index

namespace Json

/-- The handle that a value marks, if it is a marker. -/
def marker? : Json → Option Handle
  | .obj [(key, v)] => if key = markerKey then v.unsigned?.map Handle.mk else none
  | _ => none

/-- The name of a value's type in messages; a marker counts as the function it stands for. -/
def shownType (v : Json) : String :=
  if v.marker?.isSome then "function" else v.typeName

end Json
end GuildPlan
