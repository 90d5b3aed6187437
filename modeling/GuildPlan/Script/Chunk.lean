import GuildPlan.Number.Double

/-
  Scripts as trees of statements and expressions.

  The forms are a fragment of the language. It has no forms for arithmetic and comparisons, for
  lengths, for methods, and for loops other than those that count; such a part of a script is
  foreign code, which is given the values of its operands. Where something stands in a file is
  not kept.

  A call may give any number of values, and so may foreign code. It stands for all of them at
  the end of a list of arguments, of returned values or of the items of a table without keyed
  entries, and for the first of them, or nil, everywhere else.
-/
namespace GuildPlan.Script

mutual
inductive Expr
  | nil
  | bool (b : Bool)
  | int (n : Int)
  | float (x : Double)
  | str (bytes : ByteArray)
  | var (name : String)
  /-- A new table of positional items, from one on, and of keyed entries. -/
  | table (items : List Expr) (entries : List (Expr × Expr))
  | get (subject key : Expr)
  | call (callee : Expr) (args : List Expr)
  | function (params : List String) (body : List Stmt)
  | equal (a b : Expr)
  | both (a b : Expr)
  | either (a b : Expr)
  | concat (a b : Expr)
  | negate (a : Expr)
  /-- Whatever else scripts can express: foreign code with the values of its operands, which are
  functions where the code decides whether a part is evaluated, or how often. -/
  | native (code : Nat) (operands : List Expr)

inductive Stmt
  /-- New local variables for the rest of the block. -/
  | declare (names : List String) (values : List Expr)
  /-- Assigns to the visible local variable of the name, or else to the global one. -/
  | assign (name : String) (value : Expr)
  | set (subject key value : Expr)
  | run (e : Expr)
  | answer (values : List Expr)
  | choose (test : Expr) (yes no : List Stmt)
  /-- Runs the body for each integer from the first to the last. -/
  | count (name : String) (first last : Expr) (body : List Stmt)
  /-- Logs a value with all that is in it. -/
  | dump (label : String) (value : Expr)
end

instance : Inhabited Expr := ⟨.nil⟩

abbrev Block := List Stmt

/-- What a file holds for the interpreter: a block, or nothing that it can read. -/
abbrev Source := Option Block

end GuildPlan.Script
