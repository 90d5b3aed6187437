import GuildPlan.Inclusion
import GuildPlan.Script.Step

/-
  The interpreter as the host sees it: a machine with the library in it, the evaluation of
  an entry script on it, and the predicates that it answers for afterwards.
-/
namespace GuildPlan.Script

/-! ## The first state -/

/-- New functions under the names by which scripts reach them. -/
def functionFields (fields : List (String × Callable)) : Run (List (String × Value)) :=
  fields.mapM fun (name, c) => return (name, ← newFunction c)

def newFields (fields : List (String × Value)) : Run Value :=
  return .table (← newTable (.ofFields fields))

def functionTable (fields : List (String × Callable)) : Run Value := do
  newFields (← functionFields fields)

/-- The capabilities as a table, those of the library or of a setup context. -/
def capabilityTable (context : Option ContextRef) (constants : List (String × Value)) :
    Run Value := do
  let global ← functionTable
    [("text", .capability (.globalChannel .text) context),
     ("voice", .capability (.globalChannel .voice) context),
     ("role", .capability .globalRole context)]
  let channel ← functionTable
    [("text", .capability (.channel .text) context),
     ("voice", .capability (.channel .voice) context)]
  let override ← functionTable
    [("role", .capability (.override .role) context),
     ("user", .capability (.override .user) context)]
  let category ← newFunction (.capability .category context)
  newFields
    ([("global", global), ("channel", channel), ("override", override),
      ("category", category)] ++ constants)

/-- The words for settings, as the library offers them. -/
def settingWords : List (String × Value) :=
  [Setting.allow, .deny, .inherit].map fun s => (s.text, .text s.text)

def globalFunctions : List (String × Callable) :=
  [("print", .builtin .print), ("type", .builtin .type), ("tostring", .builtin .tostring),
   ("pcall", .builtin .pcall), ("error", .builtin .error), ("assert", .builtin .assert),
   ("setmetatable", .builtin .setmetatable), ("getmetatable", .builtin .getmetatable)]

/-- What the platform offers in a part of the library. -/
def offered (s : Section) : Run (List (String × Value)) := do
  ((← get).platform.library s).mapM fun (name, offer) =>
    match offer with
    | .code n => return (name, ← foreignFunction n [])
    | .value v => return (name, passable [] v)

/-- A part of the library as a table, with the functions that are modelled. -/
def sectionTable (s : Section) (fields : List (String × Callable)) : Run Value := do
  newFields ((← offered s) ++ (← functionFields fields))

/-- Puts values under names into a table. -/
def putFields (r : TableRef) (fields : List (String × Value)) : Run Unit :=
  fields.forM fun (name, v) => setRaw r (.text name) v

/-- Sets up the global variables, and what stands behind strings. -/
def bootstrap : Run Unit := do
  let m ← get
  let string ← sectionTable .string []
  putFields m.strings (("__index", string) :: (← offered .strings))
  putFields m.globals (← offered .base)
  putFields m.globals (← functionFields globalFunctions)
  putFields m.globals
    [("_G", .table m.globals), ("string", string), ("table", ← sectionTable .table []),
     ("math", ← sectionTable .math []), ("utf8", ← sectionTable .utf8 []),
     ("coroutine", ← sectionTable .coroutine
       [("create", .builtin .createThread), ("wrap", .builtin .wrapThread)]),
     (libraryName, ← capabilityTable none settingWords)]

/-- A machine with nothing in it but a table for global variables and one to stand behind
strings. -/
def Machine.blank (p : Platform) : Machine :=
  { heap := #[∅, ∅], globals := ⟨0⟩, strings := ⟨1⟩, platform := p }

/-- A machine that has run nothing yet. -/
def Machine.boot (p : Platform := .plain) : Machine := (bootstrap (.blank p)).2

/-- The machine after a reset, on which nothing has run; only the log goes on. -/
def Machine.reset (m : Machine) (p : Platform := .plain) : Machine := { boot p with log := m.log }

/-! ## Evaluation -/

/-- What the host does with a machine, which may fail. -/
abbrev Hosted := EStateM Failure Machine

/-- Something done to a machine that cannot fail. -/
def hosted {α : Type} (x : Run α) : Hosted α := fun m =>
  let (a, m) := x m
  .ok a m

/-- The depth of what the host runs. -/
def hostDepth : Depth := { calls := 0, runs := 1 }

/-- The frame of the host itself. -/
def hostFrame : Frame := .host hostDepth

/-- What the host has of a value that a run has raised. -/
def Machine.words (m : Machine) (v : Value) : String :=
  match v with
  | .fault id f => m.faultText id f
  | v => m.faultText m.faults (m.raised v)

/-- How an evaluation fails for a value that a run has raised. -/
def Machine.failure (m : Machine) (v : Value) : Failure :=
  match m.raised v with
  | .invalid e => .invalid e
  | .text _ => .script (m.words v)

/-- Runs a script that fails if it raises anything. -/
def completed (s : State) : Hosted (List Value) := do
  match ← hosted (run s) with
  | .ok vs => return vs
  | .error v => throw ((← get).failure v)

/-- A block that the host runs. -/
def State.ofBlock (block : Block) : State :=
  ⟨.run { depth := hostDepth } block, [.body, hostFrame]⟩

/-- A value that the host calls. -/
def State.ofCall (f : Value) (args : List Value) : State :=
  ⟨.call hostDepth false f args, [hostFrame]⟩

/-- Puts the loader of the mounted scripts in its place, with no module loaded but the
library. -/
def installLoader (scripts : MountTable Source) : Hosted Unit := do
  match ← hosted (global libraryName) with
  | .table library => hosted do
    let loaded ← newFields [(libraryName, .table library)]
    setGlobal "package" (← newFields [("loaded", loaded)])
    setGlobal "require" (← newFunction (.require scripts))
  | v => throw (.unpreparedInterpreter (notTable v).message)

/-- A field of what the entry script returned, or why it cannot be read. -/
def readField (v : Value) (name : String) : Hosted (Except String Value) := do
  let s ← hosted (askField { hostDepth with runs := 0 } v name [])
  match ← hosted (run s) with
  | .ok vs => return .ok (first vs)
  | .error v => return .error ((← get).words v)

/-- The guild's id and the setup function in what the entry script returned. -/
def readContract (returned : Value) : Hosted (String × Value) := do
  match returned with
  | .table _ =>
    let id ← match ← readField returned "id" with
      | .ok (.str bytes) =>
        match Text.ofUtf8? bytes with
        | some id => pure id
        | none => throw (.shape .idNotText)
      | .ok v => throw (.shape (.idNotString v.typeName))
      | .error message => throw (.shape (.idUnreadable message))
    if Text.allBlank id then throw (.shape .idBlank)
    match ← readField returned "setup" with
    | .ok (.function f) => return (id, .function f)
    | .ok v => throw (.shape (.setupNotFunction v.typeName))
    | .error message => throw (.shape (.setupUnreadable message))
  | v => throw (.shape (.notTable v.typeName))

/-- Runs a setup function with a context of its own and closes the context again, whether
or not the function raises anything. -/
def runSetup (setup : Value) : Hosted Setup := do
  let r ← hosted newContext
  let ctx ← hosted (capabilityTable (some r) [])
  let outcome ← hosted (run (.ofCall setup [ctx]))
  let declared := ((← get).context r).getD {}
  hosted (setContext r none)
  match outcome with
  | .ok _ => return declared
  | .error v => throw ((← get).failure v)

def declared (d : Declaration) : LogLine :=
  .debug ("Script for guild " ++ d.guildId ++ " declared " ++
    Text.decimal d.setup.channels.length ++ " channels, " ++
    Text.decimal d.setup.roles.length ++ " roles and " ++
    Text.decimal d.setup.categories.length ++ " categories")

/-- Runs the entry of mounted scripts, and the setup function that it returns. -/
def evaluateEntry (scripts : MountTable Source) : Hosted Declaration := do
  installLoader scripts
  match scripts.entrySource? with
  | none => throw (.missingEntry scripts.entryPath)
  | some none =>
    let m ← get
    throw (.script (m.faultText m.faults (.text ("syntax error: " ++ scripts.entry))))
  | some (some block) =>
    let values ← completed (.ofBlock block)
    let (guildId, setup) ← readContract (first values)
    let d : Declaration := { guildId, setup := ← runSetup setup }
    hosted (note (declared d))
    return d

/-! ## Predicates -/

/-- Asks the function behind a handle about a channel. -/
def testPredicate (h : Handle) (c : Channel) : Hosted Bool := do
  match (← get).registry.get? h with
  | none => throw (.danglingHandle h)
  | some f =>
    let channel ← hosted (enter c.toScript)
    return (first (← completed (.ofCall (.function f) [channel]))).truthy

/-- A machine as the host of the predicates that it knows. -/
def Machine.host : Host Machine where
  test h c m :=
    match testPredicate h c m with
    | .ok b m => (.ok b, m)
    | .error e m => (.error e, m)
  note line m := m.noted line

end GuildPlan.Script
