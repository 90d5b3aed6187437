import GuildPlan.Environment.Basic
import GuildPlan.Text.Alphanumeric
import GuildPlan.Text.Blank

/-
  Environment files.

  A file holds lines of the form `NAME=value`, with an optional `export` in front and an
  optional comment behind. A value may stand in single quotes, which keep everything, or in
  double quotes, in which a backslash escapes; outside single quotes a dollar sign and a
  name stand for the value of a variable. A line goes on while a quote is open. Reading
  stops at the first line that is not of this form, and what was read before stays. A
  variable that the environment already sets to text keeps its value. No variable can hold a
  zero byte, so a file that would set one to such a value cannot be loaded at all.
-/
namespace GuildPlan
namespace EnvironmentFile

/-! ## Lines -/

/-- What the end of a line means for the next one. -/
inductive Quoting
  | complete
  | blank
  | escape
  | single
  | singleEscape
  | double
  | doubleEscape
  deriving DecidableEq

/-- The state behind a character that stands outside quotes. -/
def outside (c : Char) : Quoting :=
  if c = '\\' then .escape
  else if c = '"' then .double
  else if c = '\'' then .single
  else .complete

/-- The state behind a character; none if a comment begins with it. -/
def Quoting.next (q : Quoting) (c : Char) : Option Quoting :=
  match q with
  | .blank => if c = '#' then none else some (outside c)
  | .escape => some .complete
  | .complete =>
    if Text.isBlank c && c ≠ '\n' && c ≠ '\r' then some .blank else some (outside c)
  | .double => some (if c = '\\' then .doubleEscape else if c = '"' then .complete else .double)
  | .doubleEscape => some .double
  | .single =>
    some (if c = '\\' then .singleEscape else if c = '\'' then .complete else .single)
  | .singleEscape => some .single

/-- The characters before a comment, and the state at the end if there is none. -/
def readLine : Quoting → List Char → List Char × Option Quoting
  | q, [] => ([], some q)
  | q, c :: cs =>
    match q.next c with
    | none => ([], none)
    | some q =>
      let (line, last) := readLine q cs
      (c :: line, last)

/-- A line without the mark at its end. -/
def withoutEnd (line : List Char) : List Char :=
  match line.reverse with
  | '\n' :: '\r' :: rest | '\n' :: rest => rest.reverse
  | _ => line

/-- Joins lines that belong together. The last result is none if a line is no text or the
file ends inside a line. -/
def joinLines (seen : List Char) (q : Quoting) : List (Option (List Char)) →
    List (Option (List Char))
  | [] => if q = .complete then [] else [none]
  | none :: _ => [none]
  | some line :: rest =>
    if ((seen ++ line).dropWhile Text.isBlank).head? = some '#' then
      some [] :: joinLines [] .complete rest
    else
      match readLine q line with
      | (kept, none) => some (seen ++ kept) :: joinLines [] .complete rest
      | (_, some .complete) => some (withoutEnd (seen ++ line)) :: joinLines [] .complete rest
      | (_, some q) => joinLines (seen ++ line) q rest

/-- Cuts bytes behind each line feed. -/
def cutLines : List UInt8 → List (List UInt8)
  | [] => []
  | b :: bs =>
    if b = 10 then [b] :: cutLines bs
    else
      match cutLines bs with
      | [] => [[b]]
      | line :: rest => (b :: line) :: rest

def lineText (line : List UInt8) : Option (List Char) :=
  (Text.ofUtf8? ⟨line.toArray⟩).map String.toList

/-- A file without the mark of byte order that it may begin with. -/
def withoutMark : List UInt8 → List UInt8
  | 0xEF :: 0xBB :: 0xBF :: rest => rest
  | bytes => bytes

/-- The lines of a file, each as far as it counts. -/
def lines (content : ByteArray) : List (Option (List Char)) :=
  joinLines [] .complete ((cutLines (withoutMark content.toList)).map lineText)

/-! ## Values -/

/-- Where the reading of a value stands. -/
inductive Mode
  | plain
  | escaped
  | single
  | ending
  /-- Inside the name of a variable, last character first. -/
  | name (braced : Bool) (chars : List Char)

/-- The value read so far, last character first. -/
structure Reading where
  output : List Char := []
  mode : Mode := .plain
  doubleQuoted : Bool := false

namespace Reading

def push (r : Reading) (c : Char) : Reading := { r with output := c :: r.output }

/-- Puts in the value of the variable whose name was read, and goes on plainly. -/
def substitute (lookup : String → String) (r : Reading) (chars : List Char) : Reading :=
  { r with
    output := (lookup (String.ofList chars.reverse)).toList.reverse ++ r.output
    mode := .plain }

def unescape? (c : Char) : Option Char :=
  if c = 'n' then some '\n'
  else if c = '\\' ∨ c = '\'' ∨ c = '"' ∨ c = '$' ∨ c = ' ' then some c
  else none

def inName (lookup : String → String) (r : Reading) (braced : Bool) (chars : List Char)
    (c : Char) : Reading :=
  if Text.isAlphanumeric c then { r with mode := .name braced (c :: chars) }
  else if braced then
    if c = '\x7d' then r.substitute lookup chars else { r with mode := .name true (c :: chars) }
  else if c = '\x7b' ∧ chars = [] then { r with mode := .name true [] }
  else
    let r := r.substitute lookup chars
    if c = '$' then { r with mode := .name false [] } else r.push c

def inPlain (r : Reading) (c : Char) : Reading :=
  if c = '$' then { r with mode := .name false [] }
  else if c = '\\' then { r with mode := .escaped }
  else if c = '"' then { r with doubleQuoted := !r.doubleQuoted }
  else if r.doubleQuoted then r.push c
  else if c = '\'' then { r with mode := .single }
  else if c = ' ' ∨ c = '\t' then { r with mode := .ending }
  else r.push c

/-- The value at its end, if nothing is left open. -/
def finish (lookup : String → String) (r : Reading) : Option String :=
  if r.doubleQuoted then none
  else
    match r.mode with
    | .single | .name true _ => none
    | .name false chars => some (String.ofList (r.substitute lookup chars).output.reverse)
    | _ => some (String.ofList r.output.reverse)

def run (lookup : String → String) : Reading → List Char → Option String
  | r, [] => r.finish lookup
  | r, c :: cs =>
    match r.mode with
    | .ending =>
      if c = ' ' ∨ c = '\t' then run lookup r cs
      else if c = '#' then r.finish lookup
      else none
    | .escaped =>
      (unescape? c).bind fun c => run lookup ({ r with mode := .plain }.push c) cs
    | .single =>
      run lookup (if c = '\'' then { r with mode := .plain } else r.push c) cs
    | .name braced chars => run lookup (r.inName lookup braced chars c) cs
    | .plain => run lookup (r.inPlain c) cs

end Reading

/-! ## Assignments -/

def skip (cs : List Char) : List Char := cs.dropWhile Text.isBlank

/-- A name and what follows it. -/
def key? : List Char → Option (String × List Char)
  | c :: cs =>
    if c.isAlpha || c = '_' then
      let inKey (c : Char) : Bool := c.isAlphanum || c = '_' || c = '.'
      some (String.ofList (c :: cs.takeWhile inKey), cs.dropWhile inKey)
    else none
  | [] => none

def equals? : List Char → Option (List Char)
  | '=' :: cs => some cs
  | _ => none

/-- A name, and what follows the equals sign behind it. -/
def assignment? (cs : List Char) : Option (String × List Char) := do
  let (key, cs) ← key? cs
  let cs := skip cs
  match equals? cs with
  | some cs => some (key, cs)
  | none =>
    if key = "export" then
      let (key, cs) ← key? cs
      return (key, ← equals? (skip cs))
    else none

/-- What a line sets, if anything; none if it is not of the form. -/
def readAssignment (lookup : String → String) (line : List Char) :
    Option (Option (String × String)) :=
  let cs := skip (line.reverse.dropWhile Text.isBlank).reverse
  if cs.isEmpty || cs.head? = some '#' then some none
  else do
    let (key, cs) ← assignment? cs
    let cs := skip cs
    if cs.isEmpty || cs.head? = some '#' then return some (key, "")
    else return some (key, ← Reading.run lookup {} cs)

/-- Whether a value can be given to a variable. -/
def settable (value : String) : Bool := !value.toList.contains '\x00'

/-- The environment after the lines of a file, given what the file itself has set. -/
def loadLines (env : Environment) (own : KeyMap String) :
    List (Option (List Char)) → Option Environment
  | some line :: rest =>
    let lookup (name : String) : String := (env.text? name).getD ((own.get? name).getD "")
    match readAssignment lookup line with
    | none => some env
    | some none => loadLines env own rest
    | some (some (key, value)) =>
      if (env.text? key).isSome then loadLines env (own.insert key value) rest
      else if settable value then
        loadLines (env.insert key value.toUTF8) (own.insert key value) rest
      else none
  | _ => some env

end EnvironmentFile

/-- The environment with what a file adds to it, unless the file cannot be loaded. -/
def Environment.load? (env : Environment) (content : ByteArray) : Option Environment :=
  EnvironmentFile.loadLines env ∅ (EnvironmentFile.lines content)

end GuildPlan
