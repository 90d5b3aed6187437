import GuildPlan.Number.Double

/-
  Decimal digits of a positive finite number: the fewest that read back to it, or a fixed
  count of significant ones.

  Digits are a natural number and a power of ten. The grid with `n` digits is the one on
  which the number's leading digit has place `n`; the shortest form is taken from the first
  grid with a point in the interval of reals that round to the number.
-/
namespace GuildPlan.Decimal

/-- `digits * 10 ^ exponent`. -/
structure Digits where
  digits : Nat
  exponent : Int
  deriving DecidableEq

/-- `c * 10 ^ e ≤ k * 2 ^ s`, decided on natural numbers. -/
def le (c : Nat) (e : Int) (k : Nat) (s : Int) : Bool :=
  c * (tenPower e).1 * (twoPower s).2 ≤ k * (twoPower s).1 * (tenPower e).2

/-- `k * 2 ^ s ≤ c * 10 ^ e`, decided on natural numbers. -/
def ge (c : Nat) (e : Int) (k : Nat) (s : Int) : Bool :=
  k * (twoPower s).1 * (tenPower e).2 ≤ c * (tenPower e).1 * (twoPower s).2

/-- The place of the leading digit: the greatest `e` with `10 ^ e ≤ num / den`. -/
def leadingPlace (num den : Nat) : Int :=
  let e := (Double.floorLog num den * 30103).fdiv 100000
  let reached (e : Int) : Bool := den * (tenPower e).1 ≤ num * (tenPower e).2
  if reached (e + 1) then e + 1 else if reached e then e else e - 1

/-- Moves trailing zeros of the digits into the exponent. -/
def stripZeros : Nat → Digits → Digits
  | 0, x => x
  | fuel + 1, x =>
    if x.digits ≠ 0 ∧ x.digits % 10 = 0 then
      stripZeros fuel ⟨x.digits / 10, x.exponent + 1⟩
    else x

/-- The interval of reals that round to a number, in quarters of its last place. -/
structure Interval where
  low : Nat
  high : Nat
  scale : Int
  closed : Bool

def Interval.contains (i : Interval) (c : Nat) (e : Int) : Bool :=
  (ge c e i.low i.scale && le c e i.high i.scale) &&
    (i.closed || !(le c e i.low i.scale || ge c e i.high i.scale))

/-- Below a power of two the next number is half as far away as above it. -/
def roundingInterval (x : Double) : Interval :=
  let m := x.mantissa
  { low := if m = Nat.pow 2 52 ∧ 1 < x.exponentField then 4 * m - 1 else 4 * m - 2
    high := 4 * m + 2
    scale := x.scale - 2
    closed := m % 2 = 0 }

/-- The points of one grid beside the number, nearest first, the even one first on a tie. -/
def neighbours (num den : Nat) (e : Int) : List Nat :=
  let (n, d) := tenPower e
  let near := roundQuotient (num * d) (den * n)
  let below := num * d / (den * n)
  if near = below then [below, below + 1] else [below + 1, below]

/-- The first point found on the grids with `n`, `n + 1`, … digits. -/
def search (i : Interval) (num den : Nat) (place : Int) : Nat → Nat → Digits
  | 0, n => ⟨(neighbours num den (place - n + 1)).headD 0, place - n + 1⟩
  | fuel + 1, n =>
    let e := place - n + 1
    match (neighbours num den e).find? (i.contains · e) with
    | some c => ⟨c, e⟩
    | none => search i num den place fuel (n + 1)

/-- The fewest digits that read back to a positive finite number, the nearest of those. -/
def shortest (x : Double) : Digits :=
  let (num, den) := x.magnitude
  stripZeros 20 (search (roundingInterval x) num den (leadingPlace num den) 16 1)

/-- The number rounded to `count` significant digits, to the even last digit on a tie. -/
def significant (count : Nat) (x : Double) : Digits :=
  let (num, den) := x.magnitude
  let e := leadingPlace num den - count + 1
  let (n, d) := tenPower e
  stripZeros (count + 1) ⟨roundQuotient (num * d) (den * n), e⟩

end GuildPlan.Decimal
