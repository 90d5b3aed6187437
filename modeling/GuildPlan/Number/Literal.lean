import GuildPlan.Number.Double
import GuildPlan.Text.Unsigned

/-
  Reading floating point numbers written in decimal, rounded once to the nearest double.
-/
namespace GuildPlan.Double

def digitsOf (cs : List Char) : Nat :=
  cs.foldl (fun n c => 10 * n + (Text.digit? c).getD 0) 0

/-- A whole number that may have a sign; the empty text stands for none. -/
def exponentOf? : List Char → Option Int
  | '-' :: cs => if !cs.isEmpty && cs.all Char.isDigit then some (-(digitsOf cs : Int)) else none
  | '+' :: cs => if !cs.isEmpty && cs.all Char.isDigit then some (digitsOf cs : Int) else none
  | cs => if !cs.isEmpty && cs.all Char.isDigit then some (digitsOf cs : Int) else none

/-- The number with these digits before and behind the point and this exponent. -/
def assemble (negative : Bool) (whole fraction : List Char) (exponent : Int) : Option Double :=
  if whole.isEmpty && fraction.isEmpty then none
  else some (ofDecimal negative (digitsOf (whole ++ fraction)) (exponent - fraction.length))

def unsigned? (negative : Bool) (cs : List Char) : Option Double :=
  let whole := cs.takeWhile Char.isDigit
  let (fraction, rest) := match cs.dropWhile Char.isDigit with
    | '.' :: cs => (cs.takeWhile Char.isDigit, cs.dropWhile Char.isDigit)
    | cs => ([], cs)
  match rest with
  | [] => assemble negative whole fraction 0
  | c :: cs =>
    if c = 'e' ∨ c = 'E' then (exponentOf? cs).bind (assemble negative whole fraction)
    else none

/-- The number that a text denotes. -/
def ofText? (s : String) : Option Double :=
  match s.toList with
  | '-' :: cs => unsigned? true cs
  | '+' :: cs => unsigned? false cs
  | cs => unsigned? false cs

end GuildPlan.Double
