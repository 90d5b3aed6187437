import GuildPlan.Script.Foreign

/-
  What the host gives to scripts: its capabilities, and the loader of mounted scripts.

  A module is run the first time that it is asked for; its value is kept in the table of
  loaded modules under the name that was asked for.
-/
namespace GuildPlan.Script

/-! ## Capabilities -/

/-- Names under which scripts find the library and the loader. -/
def libraryName : String := "discord"

/-- Reads an argument for the library, which declares nothing. -/
def readOnly (c : Capability) (json : Json) : Run (Except Fault Value) := do
  match c.read json with
  | .error e => return .error (.invalid e)
  | .ok entity =>
    if c.records then
      note (.debug (libraryName ++ "." ++ c.name ++
        " validated but not recorded; declare through ctx." ++ c.name ++ " to record it"))
    return .ok (← enter entity.toScript)

/-- Reads an argument for a setup context, and declares it there. -/
def declareIn (c : Capability) (r : ContextRef) (json : Json) : Run (Except Fault Value) := do
  match c.declare ((← get).context r) json with
  | .error e => return .error (.invalid e)
  | .ok (entity, after) =>
    setContext r after
    return .ok (← enter entity.toScript)

/-- Runs a capability: checks the argument, records what it declares, and gives it back. -/
def runCapability (c : Capability) (context : Option ContextRef) (arg : Value) :
    Run (Except Fault Value) := do
  match arg with
  | .table _ =>
    match ← leave c.location arg, context with
    | .error e, _ => return .error (.invalid e)
    | .ok json, none => readOnly c json
    | .ok json, some r => declareIn c r json
  | v => return .error (.invalid ⟨c.location, .typed "a table argument" v.typeName⟩)

/-! ## Asking on the host's behalf -/

/-- Asks for a field of a value. -/
def askField (depth : Depth) (v : Value) (name : String) (stack : Stack) : Run State :=
  return .answered depth 2 ((← get).look v (.text name)) .one (.host depth :: stack)

/-- Writes a field of a value. -/
def storeField (depth : Depth) (subject : Value) (name : String) (v : Value) (stack : Stack) :
    Run State := do
  match (← get).aim subject (.text name) with
  | .value (.table r) =>
    setRaw r (.text name) v
    return .give [] stack
  | .value _ => return .give [] stack
  | .handler h args => return .enter depth 2 h (args ++ [v]) (.host depth :: stack)
  | .refusal message => return .refuseAt 1 message (.host depth :: stack)

/-! ## Loading -/

/-- The module name that an argument denotes. -/
def moduleName (v : Value) : Except Fault String :=
  match v.bytes? with
  | some bytes =>
    match Text.ofUtf8 bytes with
    | .ok name => .ok name
    | .error e => .error (.text ("bad argument #1: " ++ conversionError "String" e))
  | none =>
    .error (.text ("bad argument #1: error converting Lua " ++ v.typeName ++
      " to String (expected string or number)"))

/-- The fault of a value that has to be a table. -/
def notTable (v : Value) : Fault := .text ("error converting Lua " ++ v.typeName ++ " to table")

/-- Begins to load the module that an argument names. -/
def startLoading (scripts : MountTable Source) (depth : Depth) (arg : Value) (stack : Stack) :
    Run State := do
  match moduleName arg with
  | .error f => raiseFault f stack
  | .ok name =>
    match ← global "package" with
    | .table package =>
      askField depth (.table package) "loaded"
        (.loading ⟨scripts, name, depth⟩ .loaded :: stack)
    | v => raiseFault (notTable v) stack

/-- Runs the script that a module is resolved to. -/
def runModule (request : Request) (modules : Value) (stack : Stack) : Run State :=
  match request.scripts.resolve? request.name with
  | none =>
    raiseFault (.text ("runtime error: module '" ++ request.name ++
      "' not found among the mounted scripts")) stack
  | some (path, none) => raiseFault (.text ("syntax error: " ++ path)) stack
  | some (_, some block) =>
    let below := .host request.depth :: .loading request (.running modules) :: stack
    match request.depth.run? 1 with
    | some depth => return ⟨.run { depth } block, .body :: below⟩
    | none => return .refuse "C stack overflow" below

/-- Goes on with the loading of a module. -/
def Loading.given (request : Request) (vs : List Value) (stack : Stack) : Loading → Run State
  | .loaded =>
    match first vs with
    | .table r =>
      askField request.depth (.table r) request.name
        (.loading request (.cached (.table r)) :: stack)
    | v => raiseFault (notTable v) stack
  | .cached modules =>
    match first vs with
    | .nil => runModule request modules stack
    | v => return .give [v] stack
  | .running modules =>
    let v := match first vs with
      | .nil => .bool true
      | v => v
    storeField request.depth modules request.name v (.loading request (.storing v) :: stack)
  | .storing v => return .give [v] stack

end GuildPlan.Script
