import GuildPlan.Script.Chunk
import GuildPlan.Script.Table

/-
  How large a script may be at most.

  Every function has room for so many variables at a time, and for so many values, of which
  its variables are the first and the parts of the expression that it evaluates the others.
  A script in which some function needs more cannot be read. A variable of a loop takes the
  room of four, and a whole script keeps one for its own use.
-/
namespace GuildPlan.Script

/-- The most variables and the most values that a function needs at a time. -/
structure Need where
  locals : Nat
  values : Nat

namespace Need

def localLimit : Nat := 200
def valueLimit : Nat := 254

instance : Max Need := ⟨fun a b => ⟨max a.locals b.locals, max a.values b.values⟩⟩

/-- The need for values alone. -/
def ofValues (n : Nat) : Need := ⟨0, n⟩

/-- The need for variables, which are values too. -/
def ofLocals (n : Nat) : Need := ⟨n, n⟩

def isMet (n : Need) : Bool := n.locals ≤ localLimit && n.values ≤ valueLimit

end Need

/-- The variables that a loop takes. -/
def loopVariables : Nat := 4

mutual
/-- What an expression needs on top of so many values. -/
def exprNeed (held : Nat) : Expr → Need
  | .table items entries =>
    max (itemsNeed (held + 1) 0 items) (entriesNeed (held + 1 + items.length % Table.batch) entries)
  | .get a b | .equal a b | .concat a b => max (exprNeed held a) (exprNeed (held + 1) b)
  | .call callee args => max (exprNeed held callee) (rowNeed (held + 1) args)
  | .native _ operands => rowNeed held operands
  | .function params body =>
    max (.ofValues (held + 1)) (max (.ofLocals params.length) (blockNeed params.length body))
  | .both a b | .either a b => max (exprNeed held a) (exprNeed held b)
  | .negate a => exprNeed held a
  | _ => .ofValues (held + 1)

/-- What expressions need of which each is held while the next ones are evaluated. -/
def rowNeed (held : Nat) : List Expr → Need
  | [] => .ofValues held
  | e :: es => max (exprNeed held e) (rowNeed (held + 1) es)

/-- What the items of a table need, held until a batch is full. -/
def itemsNeed (held waiting : Nat) : List Expr → Need
  | [] => .ofValues held
  | e :: es => max (exprNeed (held + waiting) e) (itemsNeed held ((waiting + 1) % Table.batch) es)

def entriesNeed (held : Nat) : List (Expr × Expr) → Need
  | [] => .ofValues held
  | (k, v) :: rest =>
    max (max (exprNeed held k) (exprNeed (held + 1) v)) (entriesNeed held rest)

/-- What a statement needs in a function with so many variables. -/
def stmtNeed (held : Nat) : Stmt → Need
  | .declare names values => max (rowNeed held values) (.ofLocals (held + names.length))
  | .assign _ e | .run e | .dump _ e => exprNeed held e
  | .set s k v => max (exprNeed held s) (max (exprNeed (held + 1) k) (exprNeed (held + 2) v))
  | .answer values => rowNeed held values
  | .choose test yes no => max (exprNeed held test) (max (blockNeed held yes) (blockNeed held no))
  | .count _ start last body =>
    max (max (exprNeed held start) (exprNeed (held + 1) last))
      (max (.ofLocals (held + loopVariables)) (blockNeed (held + loopVariables) body))

def blockNeed (held : Nat) : List Stmt → Need
  | [] => .ofValues held
  | .declare names values :: rest =>
    max (stmtNeed held (.declare names values)) (blockNeed (held + names.length) rest)
  | s :: rest => max (stmtNeed held s) (blockNeed held rest)
end

/-- Whether a script can be read. -/
def isReadable (block : Block) : Bool := (blockNeed 1 block).isMet

end GuildPlan.Script
