import GuildPlan.Script.Numeral

/-
  Loops that count from a first number up to a last one.

  If the first number is an integer, integers are counted, up to the greatest that is not
  above the last number. Otherwise floats are counted, one apart from each other.
-/
namespace GuildPlan.Script

/-- What a loop has still to count. -/
inductive Counting
  | done
  | integers (next : Int) (more : Nat)
  | floats (next last : Double)

namespace Counting

/-- The integers from one to another. -/
def between (first last : Int) : Counting := .integers first (last - first + 1).toNat

/-- The integers from one up to a number that no integer of 64 bits reaches. -/
def toward (first : Int) (last : Double) : Counting :=
  if Double.lt (.ofInt 0) last then between first (Nat.pow 2 63 - 1) else .done

/-- The floats from one up to another. What is not a number counts once. -/
def floatsFrom (first last : Double) : Counting :=
  if last.lt first then .done else .floats first last

/-- What a loop counts whose bounds are given as values. -/
def ofBounds : Value → Value → Except String Counting
  | .int first, last =>
    match last.floor?, last.float? with
    | some n, _ => .ok (between first n)
    | none, some x => .ok (toward first x)
    | none, none => .error "'for' limit must be a number"
  | first, last =>
    match first.float?, last.float? with
    | some x, some y => .ok (floatsFrom x y)
    | _, none => .error "'for' limit must be a number"
    | none, _ => .error "'for' initial value must be a number"

/-- The next number, and what is left after it. -/
def next? : Counting → Option (Value × Counting)
  | .done | .integers _ 0 => none
  | .integers n (more + 1) => some (.int n, .integers (n + 1) more)
  | .floats x last =>
    let after := x.add (.ofInt 1)
    some (.float x, if after.le last then .floats after last else .done)

end Counting
end GuildPlan.Script
