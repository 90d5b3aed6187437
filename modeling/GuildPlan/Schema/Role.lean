import GuildPlan.Role
import GuildPlan.Schema.Record

/-
  Roles. The permissions are a number or a decimal text, the color a number or a text of
  six hexadecimal digits after a number sign.
-/
namespace GuildPlan.Schema

def roleFields : List String := ["id", "name", "permissions", "color", "hoist", "mentionable"]

/-- Takes a number as a set of permissions that are all known. -/
def requireKnownBits (location : Location) (n : Nat) : Checked PermissionBits :=
  let bits := BitVec.ofNat 64 n
  if bits &&& ~~~Permission.knownBits = 0 then .ok bits else reject location (.knownBits n)

def readBits (r : Record) : Checked PermissionBits :=
  let location := r.place "permissions"
  match r.get? "permissions" with
  | none => .ok 0
  | some (.str s) =>
    match Text.readUnsigned (Text.trim s.toList) with
    | .ok n => requireKnownBits location n
    | .error _ => reject location .bitset
  | some v =>
    match v.unsigned? with
    | some n => requireKnownBits location n
    | none =>
      match v with
      | .int _ | .float _ => reject location .bitset
      | v => r.mistyped "permissions" "a permission bitset" v

/-- The color that a text denotes; its digits are counted in bytes. -/
def colorText? (s : String) : Option Nat :=
  match s.toList with
  | '#' :: digits =>
    if (String.ofList digits).utf8ByteSize = 6 then Text.readHex digits else none
  | _ => none

/-- The color that a value denotes. -/
def color? : Json → Option Nat
  | .str s => colorText? s
  | v => v.unsigned?.filter (· ≤ 0xFFFFFF)

def readColor (r : Record) : Checked (Option Nat) :=
  match r.get? "color" with
  | none => .ok none
  | some v =>
    match color? v with
    | some n => .ok (some n)
    | none => reject (r.place "color") .color

/-- Reads a role. -/
def readRole (location : Location) (v : Json) : Checked Role := do
  let r ← Record.ofJson location v
  r.rejectUnknown roleFields
  let id ← r.snowflake "id"
  let name ← r.name "name"
  let permissions ← readBits r
  let color ← readColor r
  let hoist ← r.optionalBool "hoist"
  let mentionable ← r.optionalBool "mentionable"
  return { id, name, permissions, color, hoist := hoist.getD false,
           mentionable := mentionable.getD false }

end GuildPlan.Schema
