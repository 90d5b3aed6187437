import GuildPlan.Number.Literal
import GuildPlan.Script.Value

/-
  Strings as numbers, where a script needs a number.

  A numeral stands alone or between blanks and may have a sign. A whole one is an integer: in
  decimal if it fits in 64 bits with a sign, in hexadecimal whatever it is, modulo 2 ^ 64. Any
  other is a float. Neither infinity nor what is not a number has a numeral.
-/
namespace GuildPlan.Script.Numeral

def isSpace (c : Char) : Bool := c == ' ' || ('\t' ≤ c && c ≤ '\r')

/-- The characters between the blanks at both ends. -/
def trim (cs : List Char) : List Char :=
  ((cs.dropWhile isSpace).reverse.dropWhile isSpace).reverse

/-- Whether a minus sign comes first, and what follows the sign, if there is one. -/
def signed : List Char → Bool × List Char
  | '-' :: cs => (true, cs)
  | '+' :: cs => (false, cs)
  | cs => (false, cs)

/-- What follows the mark of a hexadecimal numeral. -/
def hexadecimal? : List Char → Option (List Char)
  | '0' :: c :: cs => if c = 'x' ∨ c = 'X' then some cs else none
  | _ => none

def isHexDigit (c : Char) : Bool := (Text.hexDigit? c).isSome

def negateIf (negative : Bool) (n : Int) : Int := if negative then -n else n

def decimalInteger? (negative : Bool) (cs : List Char) : Option Int :=
  if !cs.isEmpty && cs.all Char.isDigit then
    some (negateIf negative (Double.digitsOf cs)) |>.filter Value.fitsInteger
  else none

def hexInteger? (negative : Bool) (cs : List Char) : Option Int :=
  if cs.isEmpty then none
  else (Text.readHexDigits 0 cs).map fun n => (negateIf negative n).bmod (Nat.pow 2 64)

/-- A number in hexadecimal, with digits behind a point or a power of two or neither. -/
def hexFloat? (negative : Bool) (cs : List Char) : Option Double := do
  let whole := cs.takeWhile isHexDigit
  let (fraction, rest) := match cs.dropWhile isHexDigit with
    | '.' :: cs => (cs.takeWhile isHexDigit, cs.dropWhile isHexDigit)
    | cs => ([], cs)
  if whole.isEmpty && fraction.isEmpty then none
  else
    let n ← Text.readHexDigits 0 (whole ++ fraction)
    let power ← match rest with
      | [] => some 0
      | c :: cs => if c = 'p' ∨ c = 'P' then Double.exponentOf? cs else none
    return .ofBinary negative n (power - 4 * fraction.length)

/-- The number that a numeral denotes. -/
def read? (cs : List Char) : Option Value :=
  let (negative, cs) := signed (trim cs)
  match hexadecimal? cs with
  | some cs =>
    match hexInteger? negative cs with
    | some n => some (.int n)
    | none => (hexFloat? negative cs).map .float
  | none =>
    match decimalInteger? negative cs with
    | some n => some (.int n)
    | none => (Double.unsigned? negative cs).map .float

/-- The characters that bytes are one by one; those of a numeral are all ASCII. -/
def characters (bytes : ByteArray) : List Char := bytes.toList.map fun b => Char.ofNat b.toNat

end Numeral

namespace Value

/-- The number that a value is, or that the numeral in it denotes. -/
def number? : Value → Option Value
  | .int n => some (.int n)
  | .float x => some (.float x)
  | .str bytes => Numeral.read? (Numeral.characters bytes)
  | _ => none

/-- The number in a value as a float. -/
def float? (v : Value) : Option Double :=
  match v.number? with
  | some (.int n) => some (.ofInt n)
  | some (.float x) => some x
  | _ => none

/-- The number in a value if it equals an integer. -/
def integer? (v : Value) : Option Int :=
  match v.number? with
  | some (.int n) => some n
  | some (.float x) => integral? x
  | _ => none

/-- The greatest integer not above the number in a value, if that fits in 64 bits. -/
def floor? (v : Value) : Option Int :=
  match v.number? with
  | some (.int n) => some n
  | some (.float x) => if x.isFinite then some x.floor |>.filter fitsInteger else none
  | _ => none

end Value
end GuildPlan.Script
