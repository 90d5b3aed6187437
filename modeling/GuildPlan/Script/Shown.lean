import GuildPlan.Script.Table

/-
  The text of a value with all that is in it, for the log.

  Strings stand in quotes, with a hexadecimal escape for each byte that is not plain.
  Entries are in the order of their keys' texts. A table that holds itself has no text.
-/
namespace GuildPlan.Script

def hexUpper (n : Nat) : Char := ((Nat.toDigits 16 n).headD '0').toUpper

def byteEscape (n : Nat) : List Char := ['\\', 'x', hexUpper (n / 16), hexUpper (n % 16)]

/-- A control character, a quote or a backslash. -/
def needsEscape (n : Nat) : Bool := n < 32 || n == 127 || n == 34 || n == 92

def shownChar (c : Char) : List Char := if needsEscape c.toNat then byteEscape c.toNat else [c]

def shownByte (b : UInt8) : List Char :=
  if needsEscape b.toNat || 128 ≤ b.toNat then byteEscape b.toNat else [Char.ofNat b.toNat]

/-- The text of a string; bytes that are no text are escaped from 128 on. -/
def shownString (bytes : ByteArray) : String :=
  let body := match Text.ofUtf8? bytes with
    | some s => s.toList.flatMap shownChar
    | none => bytes.toList.flatMap shownByte
  String.ofList ('"' :: body ++ ['"'])

/-- What comes before a mark in a text. -/
def before (mark : List Char) : List Char → List Char
  | [] => []
  | c :: cs => if mark.isPrefixOf (c :: cs) then [] else c :: before mark cs

/-- A message without the trace that may follow it. -/
def untraced (message : String) : String :=
  String.ofList (before "\nstack traceback:".toList message.toList)

/-- The texts of entries, in the order of the texts of their keys. -/
def shownEntries (shown : Value → Option String) (entries : List (Value × Value)) :
    Option (List String) := do
  let texts ← entries.mapM fun (k, v) => do return (← shown k, ← shown v)
  return (texts.mergeSort fun a b => a.1 ≤ b.1).map fun (k, v) => "[" ++ k ++ "]=" ++ v

/-- The text of a value inside some tables; none if it holds one of these again. Tables cannot
nest deeper than there are tables. -/
def shownInside (h : Heap) : Nat → List TableRef → Value → Option String
  | _, _, .nil => some "nil"
  | _, _, .bool b => some (if b then "true" else "false")
  | _, _, .int n => some (Text.decimalInt n)
  | _, _, .float x => some (Value.floatLayout.write x)
  | _, _, .str bytes => some (shownString bytes)
  | _, _, .function _ => some "function"
  | _, _, .thread _ => some "thread"
  | _, _, .fault _ f => some ("error(" ++ untraced f.message ++ ")")
  | _, _, .null => some "userdata"
  | 0, _, .table _ => none
  | depth + 1, outer, .table r =>
    if outer.contains r then none
    else do
      let texts ← shownEntries (shownInside h depth (r :: outer)) (h.table r).entries
      return "\x7b" ++ ",".intercalate texts ++ "\x7d"

/-- The text of a value. -/
def shown? (h : Heap) (v : Value) : Option String := shownInside h (h.size + 1) [] v

end GuildPlan.Script
