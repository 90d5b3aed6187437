import GuildPlan.Text.Blank

/-
  Unsigned 64-bit numbers in decimal.

  An optional single plus sign comes before one or more ASCII digits. A text that fails is
  blamed on the first character at which it fails: a character that is no digit, or the
  digit with which the number leaves the range.
-/
namespace GuildPlan.Text

/-- Why a text denotes no unsigned 64-bit number. -/
inductive UnsignedError
  | empty
  | invalidDigit
  | tooLarge
  deriving DecidableEq

def UnsignedError.message : UnsignedError → String
  | .empty => "cannot parse integer from empty string"
  | .invalidDigit => "invalid digit found in string"
  | .tooLarge => "number too large to fit in target type"

/-- The value of an ASCII decimal digit. -/
def digit? (c : Char) : Option Nat :=
  if '0' ≤ c ∧ c ≤ '9' then some (c.toNat - '0'.toNat) else none

/-- The value of an ASCII hexadecimal digit, in either case. -/
def hexDigit? (c : Char) : Option Nat :=
  if '0' ≤ c ∧ c ≤ '9' then some (c.toNat - '0'.toNat)
  else if 'a' ≤ c ∧ c ≤ 'f' then some (c.toNat - 'a'.toNat + 10)
  else if 'A' ≤ c ∧ c ≤ 'F' then some (c.toNat - 'A'.toNat + 10)
  else none

/-- Reads digits onto the number read so far. -/
def readDigits : Nat → List Char → Except UnsignedError Nat
  | n, [] => .ok n
  | n, c :: cs =>
    match digit? c with
    | none => .error .invalidDigit
    | some d => if 10 * n + d < Nat.pow 2 64 then readDigits (10 * n + d) cs else .error .tooLarge

/-- Reads an unsigned 64-bit number. -/
def readUnsigned : List Char → Except UnsignedError Nat
  | [] => .error .empty
  | '+' :: [] => .error .invalidDigit
  | '+' :: cs => readDigits 0 cs
  | cs => readDigits 0 cs

/-- Reads hexadecimal digits onto the number read so far. -/
def readHexDigits : Nat → List Char → Option Nat
  | n, [] => some n
  | n, c :: cs => (hexDigit? c).bind fun d => readHexDigits (16 * n + d) cs

/-- Reads a hexadecimal number, which may begin with a plus sign. -/
def readHex : List Char → Option Nat
  | [] => none
  | '+' :: [] => none
  | '+' :: cs => readHexDigits 0 cs
  | cs => readHexDigits 0 cs

/-- The decimal digits of a number. -/
def decimal (n : Nat) : String := String.ofList (Nat.toDigits 10 n)

/-- The decimal digits of an integer, after a minus sign if it is negative. -/
def decimalInt (n : Int) : String :=
  if n < 0 then "-" ++ decimal n.natAbs else decimal n.natAbs

end GuildPlan.Text
