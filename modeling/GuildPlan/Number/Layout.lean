import GuildPlan.Number.Decimal

/-
  How a floating point number is written: which digits, where positional writing ends, and
  how an exponent looks. A format is one `Layout` value in the module that writes it.
-/
namespace GuildPlan

/-- The decisions of one number format. -/
structure Layout where
  /-- A count of significant digits, or the fewest digits that read back. -/
  significant : Option Nat
  /-- Leading places from here on are written positionally; `none` for no bound. -/
  plainFrom : Option Int
  /-- Leading places below this are written positionally; `none` for no bound. -/
  plainBelow : Option Int
  /-- Whether a whole number written positionally ends in `.0`. -/
  pointZero : Bool
  /-- The least count of exponent digits. -/
  exponentWidth : Nat
  nan : String
  infinity : String

namespace Layout

def zeros (n : Nat) : List Char := List.replicate n '0'

/-- Digits `ds` with the decimal point after the first `point` of them. -/
def positional (pointZero : Bool) (ds : List Char) (point : Int) : List Char :=
  if point ≤ 0 then '0' :: '.' :: zeros (-point).toNat ++ ds
  else
    let n := point.toNat
    if ds.length ≤ n then
      ds ++ zeros (n - ds.length) ++ (if pointZero then ['.', '0'] else [])
    else ds.take n ++ '.' :: ds.drop n

def exponential (width : Nat) (ds : List Char) (place : Int) : List Char :=
  let mantissa := match ds with
    | d :: e :: rest => d :: '.' :: e :: rest
    | ds => ds
  let e := Nat.toDigits 10 place.natAbs
  mantissa ++ 'e' :: (if place < 0 then '-' else '+') :: zeros (width - e.length) ++ e

def unsigned (l : Layout) (x : Double) : List Char :=
  if x.isZero then positional l.pointZero ['0'] 1
  else
    let d := match l.significant with
      | some count => Decimal.significant count x
      | none => Decimal.shortest x
    let ds := Nat.toDigits 10 d.digits
    let place : Int := d.exponent + (ds.length : Int) - 1
    if l.plainFrom.all (· ≤ place) && l.plainBelow.all (place < ·) then
      positional l.pointZero ds (place + 1)
    else exponential l.exponentWidth ds place

/-- The text of a number. -/
def write (l : Layout) (x : Double) : String :=
  if x.isNaN then l.nan
  else
    let body := if x.isFinite then String.ofList (l.unsigned x) else l.infinity
    if x.negative then "-" ++ body else body

end Layout
end GuildPlan
