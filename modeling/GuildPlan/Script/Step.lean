import GuildPlan.Script.Loader
import GuildPlan.Script.Shown

/-
  One step of a running script, and runs as many steps in a row.

  Expressions and statements take their parts to the stack; what is given, what is raised
  and what ends goes to the frame that waits on top of it.
-/
namespace GuildPlan.Script

/-! ## Variables -/

/-- The name of the variable for all arguments that have no variable of their own. -/
def restName : String := "..."

/-- The first value that a variable has. -/
def initial (name : String) (vs : List Value) : Run Value := do
  if name = restName then
    return .table (← newTable ((Table.ofItems vs).set (.text "n") (.int vs.length)))
  else return first vs

/-- A scope with new variables; those without a value are nil. -/
def bind : List String → List Value → Scope → Run Scope
  | [], _, scope => return scope
  | name :: names, vs, scope => do
    let cell ← newCell (← initial name vs)
    bind names vs.tail ((name, cell) :: scope)

def lookUp (site : Site) (name : String) : Run Value := do
  match site.find? name with
  | some r => return (← get).cell r
  | none => global name

def assign (site : Site) (name : String) (v : Value) : Run Unit :=
  match site.find? name with
  | some r => setCell r v
  | none => setGlobal name v

def Machine.operand (m : Machine) : Operand → Value
  | .value v => v
  | .variable r => m.cell r

/-! ## Expressions and statements -/

/-- Goes on with a table of `count` items that is to get these entries; nobody else has got it
before it is complete. -/
def fill (site : Site) (t : Table) (count : Nat) (stack : Stack) :
    List (Expr × Expr) → Run State
  | [] => return .give [.table (← newTable (t.complete count))] stack
  | (k, v) :: rest => return .start site (.entry t count rest) [k, v] stack

def evaluate (site : Site) (stack : Stack) : Expr → Run State
  | .nil => return .give [.nil] stack
  | .bool b => return .give [.bool b] stack
  | .int n => return .give [.int n] stack
  | .float x => return .give [.float x] stack
  | .str bytes => return .give [.str bytes] stack
  | .var name => return .give [← lookUp site name] stack
  | .table items entries => return .start site (.items entries) items stack
  | .get subject key => return .start site .index [subject, key] stack
  | .call callee args => return .start site .call (callee :: args) stack
  | .function params body =>
    return .give [← newFunction (.closure params body site.scope)] stack
  | .equal a b => return .start site .equal [a, b] stack
  | .both a b => return .start site (.both b) [a] stack
  | .either a b => return .start site (.either b) [a] stack
  | .concat a b => return .start site .concat [a, b] stack
  | .negate a => return .start site .negate [a] stack
  | .native code operands => return .start site (.native code) operands stack

def execute (site : Site) (stack : Stack) : Stmt → State
  | .declare names values => .start site (.declare names) values stack
  | .assign name value => .start site (.assign name) [value] stack
  | .set subject key value => .start site .set [subject, key, value] stack
  | .run e => ⟨.evaluate site e, .statement site :: stack⟩
  | .answer [.call callee args] => .start site .tailCall (callee :: args) stack
  | .answer values => .start site .answer values stack
  | .choose test yes no => .start site (.choose yes no) [test] stack
  | .count name first last body => .start site (.count name body) [first, last] stack
  | .dump label value => .start site (.dump label) [value] stack

/-- Runs the body of a loop for the next number, if there is one. -/
def turn (site : Site) (name : String) (body : Block) (counting : Counting) (stack : Stack) :
    Run State := do
  match counting.next? with
  | none => return ⟨.next site, stack⟩
  | some (v, counting) =>
    let locals ← bind [name] [v] site.locals
    return ⟨.run { site with locals } body, .loop site name body counting :: stack⟩

/-- Puts an entry into a table that is not complete and goes on with the next one. -/
def putEntry (site : Site) (t : Table) (count : Nat) (rest : List (Expr × Expr))
    (key value : Value) (stack : Stack) : Run State :=
  match key.key? with
  | none => return .refuse key.keyRefusal stack
  | some key => fill site (t.withEntry count key value) count stack rest

/-- Writes a field, unless a handler takes it. -/
def writeField (site : Site) (subject key value : Value) (stack : Stack) : Run State := do
  match (← get).aim subject key with
  | .value (.table r) =>
    match key.key? with
    | none => return .refuse key.keyRefusal stack
    | some key =>
      setRaw r key value
      return ⟨.next site, stack⟩
  | .value _ => return ⟨.next site, stack⟩
  | .handler h args => return .enter site.depth 1 h (args ++ [value]) (.statement site :: stack)
  | .refusal message => return .refuseAt 1 message stack

/-- Logs a value under a label. -/
def dump (site : Site) (label : String) (v : Value) (stack : Stack) : Run State := do
  match shown? (← get).heap v with
  | some s =>
    note (.debug ("script: " ++ label ++ "=" ++ s))
    return ⟨.next site, stack⟩
  | none => return .refuse "stack overflow" stack

/-- Takes an action on the values of its operands. -/
def act (site : Site) (vs : List Value) (stack : Stack) (action : Action) : Run State := do
  let a := first vs
  let b := first vs.tail
  match action with
  | .index => return .answered site.depth 1 ((← get).look a b) .one stack
  | .call => return ⟨.call site.depth false a vs.tail, stack⟩
  | .tailCall => return ⟨.call site.depth true a vs.tail, enclosing stack⟩
  | .equal => return .answered site.depth 1 ((← get).compare a b) .truth stack
  | .concat => return .answered site.depth 1 ((← get).join a b) .one stack
  | .negate => return .give [.bool !a.truthy] stack
  | .native code => return ⟨.give vs, .foreign site.depth code [[]] :: stack⟩
  | .both e => return if a.truthy then ⟨.evaluate site e, .one :: stack⟩ else .give [a] stack
  | .either e => return if a.truthy then .give [a] stack else ⟨.evaluate site e, .one :: stack⟩
  | .items entries => fill site (.ofItems vs) vs.length stack entries
  | .entry t count rest => putEntry site t count rest a b stack
  | .declare names => return ⟨.next { site with locals := ← bind names vs site.locals }, stack⟩
  | .assign name =>
    assign site name a
    return ⟨.next site, stack⟩
  | .set => writeField site a b (first vs.tail.tail) stack
  | .answer => return ⟨.leave vs, stack⟩
  | .choose yes no => return ⟨.run site (if a.truthy then yes else no), .scoped site :: stack⟩
  | .count name body =>
    match Counting.ofBounds a b with
    | .ok counting => turn site name body counting stack
    | .error message => return .refuse message stack
  | .dump label => dump site label a stack

/-- Finds the next operand of an action, or takes the action if there is no more. -/
def find (site : Site) (action : Action) (found : List Operand) (stack : Stack) :
    List Expr → Run State
  | [] => do
    let m ← get
    act site (found.reverse.map m.operand) stack action
  | e :: rest =>
    match if found.length < action.late then site.ownVariable? e else none with
    | some r => return ⟨.find site action (.variable r :: found) rest, stack⟩
    | none => return ⟨.evaluate site e, .operands site action found rest :: stack⟩

/-! ## Calls -/

/-- Runs the body of a script function. -/
def callClosure (depth : Depth) (tail : Bool) (params : List String) (body : Block)
    (scope : Scope) (args : List Value) (stack : Stack) : Run State := do
  match if tail then some depth else depth.call? with
  | none => return .refuse "stack overflow" stack
  | some depth =>
    let site := { locals := ← bind params args [], captured := scope, depth }
    return ⟨.run site body, if tail then stack else .body :: stack⟩

/-- Calls a value. -/
def call (depth : Depth) (tail : Bool) (f : Value) (args : List Value) (stack : Stack) :
    Run State := do
  let m ← get
  match m.callee f args with
  | .refusal message => return .refuseAt 1 message stack
  | .function r args =>
    match m.callable r with
    | .closure params body scope => callClosure depth tail params body scope args stack
    | .builtin b => runBuiltin depth args stack b
    | .capability c context =>
      match ← runCapability c context (first args) with
      | .ok v => return .give [v] stack
      | .error f => raiseFault f stack
    | .require scripts => startLoading scripts depth (first args) stack
    | .resume thread => resumeThread depth thread true args stack
    | .foreign code captured =>
      return ⟨.give args, .foreign depth code [captured.map m.cell] :: stack⟩

/-! ## What frames do -/

/-- What the host has when values have been raised in place of one another for too long. -/
def hopeless : Fault := .ofText "error in error handling".toUTF8

/-- Raises the error object of a raised value. A handler may turn the value into text, and what
the handler raises is raised in place of the value, a level deeper. -/
def raiseToHost (depth : Depth) (v : Value) (stack : Stack) : Run State := do
  match (← get).handler "__tostring" v with
  | .nil => do raiseFault ((← get).raised v) stack
  | h =>
    if depth.runs < Depth.handlingLimit then
      return .enter depth 2 h [v] (.message depth :: stack)
    else raiseFault hopeless stack

/-- Goes on with the values that a frame has been waiting for. -/
def Frame.given (vs : List Value) (stack : Stack) : Frame → Run State
  | .operands site action found after =>
    let vs := if after.isEmpty && action.spreads then vs else [first vs]
    return ⟨.find site action (vs.reverse.map .value ++ found) after, stack⟩
  | .one => return .give [first vs] stack
  | .truth => return .give [.bool (first vs).truthy] stack
  | .statement site => return ⟨.next site, stack⟩
  | .guard => return .give (.bool true :: vs) stack
  | .thread r _ => do
    setThread r .dead
    return .give vs stack
  | .text => return takeText vs stack
  | .printing depth texts after => printMore depth texts after vs stack
  | .loading request stage => stage.given request vs stack
  | .foreign depth code seen => goOn depth code (seen ++ [vs]) stack
  | .message depth =>
    match (first vs).bytes? with
    | some bytes => raiseFault (.ofText bytes) stack
    | none =>
      return .raise (.text "'__tostring' must return a string") (.message depth :: stack)
  | .rest _ | .scoped _ | .loop _ _ _ _ | .body | .host _ => return .give vs stack

/-- Goes on after a statement. -/
def Frame.passed (site : Site) (stack : Stack) : Frame → Run State
  | .rest block => return ⟨.run site block, stack⟩
  | .scoped outer => return ⟨.next outer, stack⟩
  | .loop outer name inner counting => turn outer name inner counting stack
  | .body => return .give [] stack
  | _ => return ⟨.next site, stack⟩

/-- Returns from a function, if the frame is one. -/
def Frame.left (vs : List Value) (stack : Stack) : Frame → State
  | .body => .give vs stack
  | _ => ⟨.leave vs, stack⟩

/-- Raises a value through a frame, unless that holds it back. What a thread raises is raised
to whoever resumed it, a string with that one's place in front. -/
def Frame.struck (v : Value) (stack : Stack) : Frame → Run State
  | .guard => return .give [.bool false, v] stack
  | .thread r placed => do
    setThread r .dead
    return if placed then raiseAt 1 v stack else .raise v stack
  | .host depth => raiseToHost depth v stack
  | .message depth => raiseToHost { depth with runs := depth.runs + 1 } v stack
  | _ => return .raise v stack

/-! ## Steps and runs -/

/-- What a step leads to. -/
inductive Status
  | going (s : State)
  /-- The values that were given, or the value that was raised. -/
  | ended (outcome : Except Value (List Value))

def step (s : State) : Run Status :=
  match s.control, s.stack with
  | .run site (s :: rest), stack => return .going (execute site (.rest rest :: stack) s)
  | .run site [], stack => return .going ⟨.next site, stack⟩
  | .evaluate site e, stack => return .going (← evaluate site stack e)
  | .find site action found rest, stack => return .going (← find site action found stack rest)
  | .call depth tail f args, stack => return .going (← call depth tail f args stack)
  | .give vs, f :: stack => return .going (← f.given vs stack)
  | .next site, f :: stack => return .going (← f.passed site stack)
  | .leave vs, f :: stack => return .going (f.left vs stack)
  | .raise v, f :: stack => return .going (← f.struck v stack)
  | .refuse level own message, stack => do
    return .going (.raise ((← get).refusal level own message stack) stack)
  | .give vs, [] | .leave vs, [] => return .ended (.ok vs)
  | .next _, [] => return .ended (.ok [])
  | .raise v, [] => return .ended (.error v)

/-- What is raised by a run that comes to no end. -/
def endless : Value := .text "script does not end"

/-- Runs a script for at most so many steps, with a chance for the platform to arrange tables
between any two of them. -/
def runFor : Nat → State → Machine → Except Value (List Value) × Machine
  | 0, _, m => (.error endless, m)
  | steps + 1, s, m =>
    match step s m with
    | (.going s, m) => runFor steps s m.stirred
    | (.ended outcome, m) => (outcome, m)

/-- More steps than any script takes that is waited for. -/
def stepLimit : Nat := Nat.pow 10 18

/-- Runs a script to its end. -/
def run (s : State) : Run (Except Value (List Value)) := fun m => runFor stepLimit s m.stirred

end GuildPlan.Script
