import GuildPlan.Json.Basic
import GuildPlan.Number.Layout
import GuildPlan.Text.Unsigned

/-
  JSON text, compact or indented by two blanks. Members are written in the order in which
  an object holds them.
-/
namespace GuildPlan.Json

/-- Numbers are written with the fewest digits, positionally from the fifth place behind
the point to the sixteenth before it, and always so that they read back as floats. -/
def numberLayout : Layout where
  significant := none
  plainFrom := some (-5)
  plainBelow := some 16
  pointZero := true
  exponentWidth := 1
  nan := "null"
  infinity := "null"

/-- The text of a float. -/
def numberText (x : Double) : String := numberLayout.write x

def hexLower (n : Nat) : Char := (Nat.toDigits 16 n).headD '0'

/-- A control character's escape of four hexadecimal digits. -/
def unicodeEscape (n : Nat) : List Char :=
  ['\\', 'u', '0', '0', hexLower (n / 16), hexLower (n % 16)]

def escapeChar (c : Char) : List Char :=
  if c = '"' then ['\\', '"']
  else if c = '\\' then ['\\', '\\']
  else if c = '\n' then ['\\', 'n']
  else if c = '\r' then ['\\', 'r']
  else if c = '\t' then ['\\', 't']
  else if c.toNat = 8 then ['\\', 'b']
  else if c.toNat = 12 then ['\\', 'f']
  else if c.toNat < 32 then unicodeEscape c.toNat
  else [c]

def quote (s : String) : String :=
  String.ofList ('"' :: s.toList.flatMap escapeChar ++ ['"'])

mutual
/-- The text without blanks. -/
def compact : Json → String
  | .null => "null"
  | .bool true => "true"
  | .bool false => "false"
  | .int n => Text.decimalInt n
  | .float x => numberText x
  | .str s => quote s
  | .arr items => "[" ++ ",".intercalate (compactItems items) ++ "]"
  | .obj members => "\x7b" ++ ",".intercalate (compactMembers members) ++ "\x7d"

def compactItems : List Json → List String
  | [] => []
  | v :: vs => compact v :: compactItems vs

def compactMembers : List (String × Json) → List String
  | [] => []
  | (k, v) :: ms => (quote k ++ ":" ++ compact v) :: compactMembers ms
end

def indent (depth : Nat) : String := String.ofList (List.replicate (2 * depth) ' ')

/-- Pieces between brackets, each on a line of its own. -/
def block (opening closing : String) (depth : Nat) (pieces : List String) : String :=
  if pieces.isEmpty then opening ++ closing
  else
    opening ++ "\n" ++ ",\n".intercalate (pieces.map (indent (depth + 1) ++ ·)) ++
      "\n" ++ indent depth ++ closing

mutual
/-- The text with each item and member on a line of its own, at a depth of nesting. -/
def prettyAt : Nat → Json → String
  | depth, .arr items => block "[" "]" depth (prettyItems (depth + 1) items)
  | depth, .obj members => block "\x7b" "\x7d" depth (prettyMembers (depth + 1) members)
  | _, v => compact v

def prettyItems : Nat → List Json → List String
  | _, [] => []
  | depth, v :: vs => prettyAt depth v :: prettyItems depth vs

def prettyMembers : Nat → List (String × Json) → List String
  | _, [] => []
  | depth, (k, v) :: ms => (quote k ++ ": " ++ prettyAt depth v) :: prettyMembers depth ms
end

def pretty (v : Json) : String := prettyAt 0 v

end GuildPlan.Json
