import GuildPlan.Json.Basic
import GuildPlan.Text.Unsigned

/-
  Reading JSON text.

  A number without fraction and exponent that fits in 64 bits, with or without a sign, is
  an integer; any other number is a float: the nearest double of its digits, multiplied or
  divided by the nearest double of the power of ten. Of two members with one key the later
  one counts.
-/
namespace GuildPlan.Json.Reader

abbrev Rest := List Char

def isSpace (c : Char) : Bool := c = ' ' || c = '\t' || c = '\n' || c = '\r'

def skip (cs : Rest) : Rest := cs.dropWhile isSpace

/-- Four hexadecimal digits. -/
def unit : Rest → Option (Nat × Rest)
  | a :: b :: c :: d :: cs => do
    let n ← [a, b, c, d].foldlM (fun n h => (Text.hexDigit? h).map (16 * n + ·)) 0
    some (n, cs)
  | _ => none

/-- The character of an escape, after its backslash. -/
def escape : Rest → Option (Char × Rest)
  | '"' :: cs => some ('"', cs)
  | '\\' :: cs => some ('\\', cs)
  | '/' :: cs => some ('/', cs)
  | 'b' :: cs => some (Char.ofNat 8, cs)
  | 'f' :: cs => some (Char.ofNat 12, cs)
  | 'n' :: cs => some ('\n', cs)
  | 'r' :: cs => some ('\r', cs)
  | 't' :: cs => some ('\t', cs)
  | 'u' :: cs => do
    let (n, cs) ← unit cs
    if 0xD800 ≤ n ∧ n < 0xDC00 then
      match cs with
      | '\\' :: 'u' :: cs =>
        let (m, cs) ← unit cs
        if 0xDC00 ≤ m ∧ m < 0xE000 then
          some (Char.ofNat (0x10000 + (n - 0xD800) * 0x400 + (m - 0xDC00)), cs)
        else none
      | _ => none
    else if 0xDC00 ≤ n ∧ n < 0xE000 then none
    else some (Char.ofNat n, cs)
  | _ => none

/-- The characters of a string up to its closing quote, last one first. -/
def chars : Nat → List Char → Rest → Option (List Char × Rest)
  | 0, _, _ => none
  | _ + 1, acc, '"' :: cs => some (acc, cs)
  | fuel + 1, acc, '\\' :: cs => do
    let (c, cs) ← escape cs
    chars fuel (c :: acc) cs
  | fuel + 1, acc, c :: cs => if c.toNat < 32 then none else chars fuel (c :: acc) cs
  | _ + 1, _, [] => none

/-- A string, after its opening quote. -/
def string (cs : Rest) : Option (String × Rest) := do
  let (acc, cs) ← chars (cs.length + 1) [] cs
  some (String.ofList acc.reverse, cs)

/-- Digits of a number as far as they fit in 64 bits, and how many do not. -/
structure Significand where
  value : Nat
  dropped : Nat

def Significand.push (s : Significand) (d : Nat) : Significand :=
  if s.dropped = 0 ∧ 10 * s.value + d < Nat.pow 2 64 then { s with value := 10 * s.value + d }
  else { s with dropped := s.dropped + 1 }

def digitsOf (cs : List Char) : List Nat := cs.filterMap Text.digit?

/-- A significand scaled by a power of ten, each rounded to a double first. -/
def scaled (negative : Bool) (value : Nat) (exponent : Int) : Double :=
  let digits := Double.round negative value 1
  if value = 0 then digits
  else if exponent = 0 then digits
  else if 308 < exponent then .infinity negative
  else if 0 < exponent then digits.mul (.ofDecimal false 1 exponent)
  else if -308 ≤ exponent then digits.div (.ofDecimal false 1 (-exponent))
  else if -616 ≤ exponent then
    (digits.div (.ofDecimal false 1 308)).div (.ofDecimal false 1 (-exponent - 308))
  else Double.round negative 0 1

/-- The number with these digits before the point, behind it, and this exponent. -/
def float (negative : Bool) (whole fraction : List Nat) (exponent : Int) : Double :=
  let before := whole.foldl Significand.push ⟨0, 0⟩
  let after := fraction.foldl Significand.push before
  let used := fraction.length - (after.dropped - before.dropped)
  scaled negative after.value (exponent + (before.dropped : Int) - (used : Int))

/-- The integer with these digits, if it fits in 64 bits and is not minus zero. -/
def integer? (negative : Bool) (whole : List Nat) : Option Int :=
  let n : Nat := whole.foldl (fun n d => 10 * n + d) 0
  if negative then (if 0 < n ∧ n ≤ Nat.pow 2 63 then some (-(n : Int)) else none)
  else if n < Nat.pow 2 64 then some n else none

def exponent : Rest → Option (Int × Rest)
  | c :: cs =>
    if c = 'e' || c = 'E' then
      let (negative, cs) := match cs with
        | '-' :: cs => (true, cs)
        | '+' :: cs => (false, cs)
        | cs => (false, cs)
      let ds := cs.takeWhile Char.isDigit
      if ds.isEmpty then none
      else
        let n : Nat := (digitsOf ds).foldl (fun n d => min 100000 (10 * n + d)) 0
        some (if negative then -(n : Int) else n, cs.dropWhile Char.isDigit)
    else some (0, c :: cs)
  | [] => some (0, [])

/-- A number, after its minus sign if it has one. -/
def number (negative : Bool) (cs : Rest) : Option (Json × Rest) := do
  let whole := cs.takeWhile Char.isDigit
  let cs := cs.dropWhile Char.isDigit
  if whole.isEmpty then none
  let whole := digitsOf whole
  match cs with
  | '.' :: cs =>
    let fraction := cs.takeWhile Char.isDigit
    if fraction.isEmpty then none
    let (e, cs) ← exponent (cs.dropWhile Char.isDigit)
    some (.float (float negative whole (digitsOf fraction) e), cs)
  | 'e' :: _ | 'E' :: _ =>
    let (e, cs) ← exponent cs
    some (.float (float negative whole [] e), cs)
  | cs =>
    match integer? negative whole with
    | some n => some (.int n, cs)
    | none => some (.float (float negative whole [] 0), cs)

mutual
/-- A value; the fuel bounds the count of nested and successive values. -/
def value : Nat → Rest → Option (Json × Rest)
  | 0, _ => none
  | fuel + 1, cs =>
    match skip cs with
    | '"' :: cs => (string cs).map fun (s, cs) => (.str s, cs)
    | '[' :: cs =>
      match skip cs with
      | ']' :: cs => some (.arr [], cs)
      | cs => (items fuel cs).map fun (vs, cs) => (.arr vs, cs)
    | '\x7b' :: cs =>
      match skip cs with
      | '\x7d' :: cs => some (.obj [], cs)
      | cs => (members fuel cs).map fun (ms, cs) => (.obj (Members.ofList ms), cs)
    | 't' :: 'r' :: 'u' :: 'e' :: cs => some (.bool true, cs)
    | 'f' :: 'a' :: 'l' :: 's' :: 'e' :: cs => some (.bool false, cs)
    | 'n' :: 'u' :: 'l' :: 'l' :: cs => some (.null, cs)
    | '-' :: cs => number true cs
    | cs => number false cs

/-- The items of an array, after its opening bracket. -/
def items : Nat → Rest → Option (List Json × Rest)
  | 0, _ => none
  | fuel + 1, cs => do
    let (v, cs) ← value fuel cs
    match skip cs with
    | ',' :: cs =>
      let (vs, cs) ← items fuel cs
      some (v :: vs, cs)
    | ']' :: cs => some ([v], cs)
    | _ => none

/-- The members of an object, after its opening bracket. -/
def members : Nat → Rest → Option (List (String × Json) × Rest)
  | 0, _ => none
  | fuel + 1, cs => do
    match skip cs with
    | '"' :: cs =>
      let (k, cs) ← string cs
      match skip cs with
      | ':' :: cs =>
        let (v, cs) ← value fuel cs
        match skip cs with
        | ',' :: cs =>
          let (ms, cs) ← members fuel cs
          some ((k, v) :: ms, cs)
        | '\x7d' :: cs => some ([(k, v)], cs)
        | _ => none
      | _ => none
    | _ => none
end

end GuildPlan.Json.Reader

namespace GuildPlan.Json

/-- Reads a text that holds one value and nothing else but white space. -/
def parse? (text : String) : Option Json := do
  let cs := text.toList
  let (v, rest) ← Reader.value (2 * cs.length + 2) cs
  if (Reader.skip rest).isEmpty then some v else none

end GuildPlan.Json
