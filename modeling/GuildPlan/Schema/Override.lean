import GuildPlan.Override
import GuildPlan.Schema.Record

/-
  Overrides: the open builder, and the strict form inside a channel or category.
-/
namespace GuildPlan.Schema

def subjectChoices : String := "\"role\" or \"user\""

/-- Checks the kind and the id of an override and leaves the rest as it is. -/
def readOverrideBuilder (location : Location) (v : Json) (kind : SubjectKind) :
    Checked OpenEntity := do
  let r ← Record.ofJson location v
  let kind ← r.kind "type" (some kind) SubjectKind.ofText? subjectChoices
  let id ← r.snowflake "id"
  return { kind := kind.text, id := some id, extra := r.rest ["type", "id"] }

/-- The setting that a value stands for. -/
def setting? : Json → Option Setting
  | .bool true => some .allow
  | .bool false => some .deny
  | .str "allow" => some .allow
  | .str "deny" => some .deny
  | .str "inherit" => some .inherit
  | _ => none

/-- Reads the settings of a permission table, up to the first that is none. -/
def readSettings (location : Location) : Members → Checked (List (String × Setting))
  | [] => .ok []
  | (key, v) :: rest =>
    match setting? v with
    | none => reject (location.field key) (.setting v.shownType)
    | some s => (readSettings location rest).map ((key, s) :: ·)

def readPermissions (r : Record) : Checked PermissionTable :=
  match r.get? "permissions" with
  | none => .ok ∅
  | some (.arr []) => .ok ∅
  | some (.obj members) => (readSettings (r.place "permissions") members).map KeyMap.ofList
  | some v => r.mistyped "permissions" "a table of permission settings" v

/-- Reads an override in full. -/
def readOverride (location : Location) (v : Json) : Checked Override := do
  let r ← Record.ofJson location v
  let id ← r.snowflake "id"
  let kind ← r.kind "type" none SubjectKind.ofText? subjectChoices
  let permissions ← readPermissions r
  return { id, kind, permissions, extra := r.rest ["id", "type", "permissions"] }

/-- Reads a list of overrides for distinct subjects. -/
def readOverrides (location : Location) (vs : List Json) : Checked (List Override) := do
  let overrides ← readItems readOverride location 0 vs
  requireUnique location (overrides.map Override.id)
  return overrides

end GuildPlan.Schema
