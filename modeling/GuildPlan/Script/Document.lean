import GuildPlan.Json.Reader
import GuildPlan.Number.Literal
import GuildPlan.Script.Limits
import GuildPlan.Text.Utf8

/-
  Scripts as JSON documents, one way to write scripts down.

  This is the reader of the plain platform only; another platform may read texts of the language.
  A document is a list of statements, each an object with one member whose key says what
  the statement is. Null, booleans, integers and strings stand for themselves as
  expressions and a list for a table of positional items; any other expression is an object
  with one member. Statements that raise, print or try are calls of the global functions of
  those names.
-/
namespace GuildPlan.Script.Document

/-- The number that a text denotes. -/
def float? (s : String) : Option Double :=
  if s = "nan" then some .nan
  else if s = "inf" then some (.infinity false)
  else if s = "-inf" then some (.infinity true)
  else Double.ofText? s

def byte? (v : Json) : Option UInt8 :=
  (v.unsigned?.filter (· < 256)).map UInt8.ofNat

def bytes? (items : List Json) : Option ByteArray :=
  (items.mapM byte?).map fun bs => ⟨bs.toArray⟩

def names? (items : List Json) : Option (List String) :=
  items.mapM fun v => match v with | .str s => some s | _ => none

/-- The expression with one key over other expressions. -/
def compound? (key : String) : List Expr → Option Expr
  | [a, b] =>
    if key = "get" then some (.get a b)
    else if key = "call" then some (.call a [b])
    else if key = "eq" then some (.equal a b)
    else if key = "and" then some (.both a b)
    else if key = "or" then some (.either a b)
    else if key = "concat" then some (.concat a b)
    else none
  | f :: args => if key = "call" then some (.call f args) else none
  | [] => none

def text (s : String) : Expr := .str s.toUTF8

/-- An integer; one that does not fit is written as a float. -/
def integer (n : Int) : Expr :=
  if Value.fitsInteger n then .int n else .float (.ofInt n)

def callGlobal (name : String) (args : List Expr) : Stmt := .run (.call (.var name) args)

/-- The keys of statements over nothing but expressions. -/
def plainKeys : List String := ["return", "print", "set"]

/-- The statement with one key over expressions. -/
def plain? (key : String) (es : List Expr) : Option Stmt :=
  if key = "return" then some (.answer es)
  else if key = "print" then some (callGlobal "print" es)
  else
    match es with
    | [s, k, v] => if key = "set" then some (.set s k v) else none
    | _ => none

/-- The statement with one key over a name and expressions. -/
def named? (key name : String) (es : List Expr) : Option Stmt :=
  if key = "try" then
    if es.isEmpty then none
    else some (.declare [name ++ "_ok", name] [.call (.var "pcall") es])
  else
    match es with
    | [e] =>
      if key = "local" then some (.declare [name] [e])
      else if key = "global" then some (.assign name e)
      else if key = "dump" then some (.dump name e)
      else none
    | _ => none

mutual
def expr? : Json → Option Expr
  | .null => some .nil
  | .bool b => some (.bool b)
  | .int n => some (integer n)
  | .str s => some (text s)
  | .arr items => (exprs? items).map (.table · [])
  | .obj [(key, v)] =>
    if key = "not" then (expr? v).map .negate
    else
      match v with
      | .str s =>
        if key = "var" then some (.var s)
        else if key = "float" then (float? s).map .float
        else none
      | .arr items =>
        if key = "mix" then mixed? items
        else if key = "bytes" then (bytes? items).map .str
        else (exprs? items).bind (compound? key)
      | .obj members =>
        if key = "t" then (fields? members).map (.table [])
        else if key = "fn" then function? members
        else none
      | _ => none
  | _ => none

def exprs? : List Json → Option (List Expr)
  | [] => some []
  | v :: vs => do
    let e ← expr? v
    return e :: (← exprs? vs)

/-- A table of a list of items and a list of keyed entries. -/
def mixed? : List Json → Option Expr
  | [.arr items, .arr entries] => do
    let items ← exprs? items
    let entries ← entries? entries
    return .table items entries
  | _ => none

/-- Keyed entries, each a list of a key and a value. -/
def entries? : List Json → Option (List (Expr × Expr))
  | [] => some []
  | .arr [k, v] :: rest => do
    let key ← expr? k
    let value ← expr? v
    return (key, value) :: (← entries? rest)
  | _ => none

/-- Entries under names. -/
def fields? : List (String × Json) → Option (List (Expr × Expr))
  | [] => some []
  | (key, v) :: rest => do
    let value ← expr? v
    return (text key, value) :: (← fields? rest)

/-- A function from its body and the names of its parameters. -/
def function? : List (String × Json) → Option Expr
  | [(body, .arr stmts), (params, .arr names)] =>
    if body = "body" ∧ params = "params" then do
      let stmts ← stmts? stmts
      let names ← names? names
      return .function names stmts
    else none
  | _ => none

def stmt? : Json → Option Stmt
  | .obj [(key, v)] =>
    if key = "do" then (expr? v).map .run
    else if key = "error" then (expr? v).map fun e => callGlobal "error" [e, .int 0]
    else
      match v with
      | .arr vs =>
        if key = "if" then choice? vs
        else if key = "for" then loop? vs
        else if plainKeys.contains key then (exprs? vs).bind (plain? key)
        else onName? key vs
      | _ => none
  | _ => none

/-- A statement that is about a name. -/
def onName? (key : String) : List Json → Option Stmt
  | .str name :: rest => (exprs? rest).bind (named? key name)
  | _ => none

/-- A test and the two blocks that it decides between. -/
def choice? : List Json → Option Stmt
  | [test, .arr yes, .arr no] => do
    let test ← expr? test
    let yes ← stmts? yes
    let no ← stmts? no
    return .choose test yes no
  | _ => none

/-- A variable, its first and last value, and the block that runs for each. -/
def loop? : List Json → Option Stmt
  | [.str name, start, last, .arr body] => do
    let start ← expr? start
    let last ← expr? last
    let body ← stmts? body
    return .count name start last body
  | _ => none

def stmts? : List Json → Option (List Stmt)
  | [] => some []
  | v :: vs => do
    let s ← stmt? v
    return s :: (← stmts? vs)
end

end GuildPlan.Script.Document

namespace GuildPlan.Script

/-- The block that a document holds, if it is not too large. -/
def Source.ofJson : Json → Source
  | .arr stmts => (Document.stmts? stmts).filter isReadable
  | _ => none

/-- The block that a file holds, if it is a script. -/
def Source.ofBytes (bytes : ByteArray) : Source :=
  (Text.ofUtf8? bytes).bind fun s => (Json.parse? s).bind ofJson

end GuildPlan.Script
