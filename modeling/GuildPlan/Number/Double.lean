/-
  64-bit floating point numbers as their bits, with exact decoding and rounding.

  A finite number is `mantissa * 2 ^ scale` up to its sign. Every operation that can
  be inexact computes a quotient of natural numbers and rounds it once, to the nearest
  number and to the even mantissa on a tie.
-/
namespace GuildPlan

/-- A binary64 number, known by its bits; two zeros differ and so do two NaNs. -/
structure Double where
  bits : UInt64
  deriving DecidableEq, Inhabited

/-- The quotient rounded to the nearest natural number, to the even one on a tie. -/
def roundQuotient (num den : Nat) : Nat :=
  let q := num / den
  let r := num % den
  if 2 * r < den then q else if den < 2 * r then q + 1 else q + q % 2

/-- `10 ^ e` as a quotient of natural numbers. -/
def tenPower (e : Int) : Nat × Nat :=
  if 0 ≤ e then (Nat.pow 10 e.toNat, 1) else (1, Nat.pow 10 (-e).toNat)

/-- `2 ^ e` as a quotient of natural numbers. -/
def twoPower (e : Int) : Nat × Nat :=
  if 0 ≤ e then (Nat.pow 2 e.toNat, 1) else (1, Nat.pow 2 (-e).toNat)

namespace Double

def negative (x : Double) : Bool := Nat.pow 2 63 ≤ x.bits.toNat
def exponentField (x : Double) : Nat := x.bits.toNat / Nat.pow 2 52 % Nat.pow 2 11
def fraction (x : Double) : Nat := x.bits.toNat % Nat.pow 2 52

def isFinite (x : Double) : Bool := x.exponentField != 2047
def isNaN (x : Double) : Bool := x.exponentField == 2047 && x.fraction != 0

/-- The integer factor of a finite number's magnitude. -/
def mantissa (x : Double) : Nat :=
  if x.exponentField = 0 then x.fraction else Nat.pow 2 52 + x.fraction

/-- The power of two that scales `mantissa`. -/
def scale (x : Double) : Int := (max x.exponentField 1 : Nat) - 1075

/-- The magnitude of a finite number as a quotient. -/
def magnitude (x : Double) : Nat × Nat :=
  let (n, d) := twoPower x.scale
  (x.mantissa * n, d)

def isZero (x : Double) : Bool := x.bits.toNat % Nat.pow 2 63 == 0

def signBit (negative : Bool) : Nat := if negative then Nat.pow 2 63 else 0

def ofMagnitudeBits (negative : Bool) (bits : Nat) : Double :=
  ⟨UInt64.ofNat (signBit negative + bits)⟩

def nan : Double := ⟨0x7FF8000000000000⟩
def infinity (negative : Bool) : Double := ofMagnitudeBits negative (2047 * Nat.pow 2 52)

/-- The greatest `e` with `2 ^ e ≤ num / den`, for positive `num` and `den`. -/
def floorLog (num den : Nat) : Int :=
  let e : Int := (num.log2 : Int) - (den.log2 : Int)
  let (n, d) := twoPower e
  if den * n ≤ num * d then e else e - 1

/-- The number nearest to `num / den`; magnitudes past the largest number become infinite. -/
def round (negative : Bool) (num den : Nat) : Double :=
  if num = 0 then ofMagnitudeBits negative 0 else
    let e := max (floorLog num den - 52) (-1074)
    let (n, d) := twoPower e
    let m := roundQuotient (num * d) (den * n)
    ofMagnitudeBits negative (min (2047 * Nat.pow 2 52) ((e + 1074).toNat * Nat.pow 2 52 + m))

def ofInt (n : Int) : Double := round (n < 0) n.natAbs 1

/-- The product of two finite numbers. -/
def mul (x y : Double) : Double :=
  round (x.negative != y.negative)
    (x.magnitude.1 * y.magnitude.1) (x.magnitude.2 * y.magnitude.2)

/-- The quotient of two finite numbers, the second of them nonzero. -/
def div (x y : Double) : Double :=
  round (x.negative != y.negative)
    (x.magnitude.1 * y.magnitude.2) (x.magnitude.2 * y.magnitude.1)

/-- The number nearest to `digits * 10 ^ e`.

Digits far outside the range of the format are settled without computing the power. -/
def ofDecimal (negative : Bool) (digits : Nat) (e : Int) : Double :=
  if digits = 0 then round negative 0 1
  else if e > 400 then infinity negative
  else if e + (digits.log2 : Int) < -1200 then round negative 0 1
  else
    let (n, d) := tenPower e
    round negative (digits * n) d

/-- The number nearest to `n * 2 ^ e`, settled without computing the power if it is far outside
the range of the format. -/
def ofBinary (negative : Bool) (n : Nat) (e : Int) : Double :=
  if n = 0 then round negative 0 1
  else if e + (n.log2 : Int) > 1100 then infinity negative
  else if e + (n.log2 : Int) < -1200 then round negative 0 1
  else
    let (num, den) := twoPower e
    round negative (n * num) den

/-- The integer that a finite number is, if it is one. -/
def toInt? (x : Double) : Option Int :=
  if x.isFinite then
    let (n, d) := x.magnitude
    if n % d = 0 then some (if x.negative then -(n / d : Nat) else (n / d : Nat)) else none
  else none

/-- Equality of the numbers that the bits denote: zeros are equal, a NaN equals nothing. -/
def sameNumber (x y : Double) : Bool :=
  !x.isNaN && (x == y || (x.isZero && y.isZero))

/-- An integer that grows with the number and is the same for both zeros. -/
def rank (x : Double) : Int :=
  if x.negative then -(x.bits.toNat % Nat.pow 2 63 : Nat) else (x.bits.toNat : Int)

/-- The order of the numbers that the bits denote; a NaN is below and above nothing. -/
def le (x y : Double) : Bool := !x.isNaN && !y.isNaN && decide (x.rank ≤ y.rank)

def lt (x y : Double) : Bool := !x.isNaN && !y.isNaN && decide (x.rank < y.rank)

/-- The greatest integer not above a finite number. -/
def floor (x : Double) : Int :=
  let (n, d) := x.magnitude
  if x.negative then -((n + d - 1) / d : Nat) else (n / d : Nat)

/-- The numerator of a finite number over the denominator of its magnitude. -/
def numerator (x : Double) : Int := if x.negative then -x.magnitude.1 else x.magnitude.1

/-- The sum of two finite numbers; it is negative zero only if both of them are. -/
def finiteSum (x y : Double) : Double :=
  let sum := x.numerator * y.magnitude.2 + y.numerator * x.magnitude.2
  let negative := if sum = 0 then x.negative && y.negative else decide (sum < 0)
  round negative sum.natAbs (x.magnitude.2 * y.magnitude.2)

/-- The sum of two numbers of which the second is finite. -/
def add (x y : Double) : Double := if x.isFinite then finiteSum x y else x

end Double
end GuildPlan
