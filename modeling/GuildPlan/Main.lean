import GuildPlan.Program

/-
  The command line: the working directory and the directory of the script as a tree, the two
  variables of the environment, and the delivery of the artifact. What is logged goes to the
  standard error.
-/
namespace GuildPlan.CommandLine

/-- Adds what a directory holds. What a link leads to is added as well if it is a file. -/
partial def readBelow (directory : String) (tree : Tree ByteArray) : IO (Tree ByteArray) := do
  let mut tree := tree.withDirectory directory
  for e in ← (← IO.FS.realPath directory).readDir do
    let path := e.path.toString
    match (← e.path.symlinkMetadata).type with
    | .dir => tree ← readBelow path tree
    | .file => tree := tree.withFile path (← IO.FS.readBinFile e.path)
    | .symlink =>
      if let .ok target ← (IO.FS.realPath e.path).toBaseIO then
        tree := tree.withLink path target.toString
        if let .ok body ← (IO.FS.readBinFile target).toBaseIO then
          tree := tree.withFile target.toString body
    | .other => pure ()
  return tree

/-- Adds what the directory of a path holds, unless it is in the tree. -/
def readBeside (path : String) (tree : Tree ByteArray) : IO (Tree ByteArray) := do
  let directory := Path.directory path
  if (tree.locate? directory).isSome then return tree
  let .ok real ← (IO.FS.realPath directory).toBaseIO | return tree
  let tree ← readBelow real.toString tree
  if (tree.locate? directory).isSome then return tree
  return tree.withLink directory real.toString

/-- The working directory, and the environment files in the directories above it. -/
def readTree : IO (Tree ByteArray) := do
  let home := (← IO.FS.realPath (← IO.currentDir)).toString
  let mut tree : Tree ByteArray := { home := Path.names home }
  tree ← readBelow home tree
  for depth in [0 : tree.home.length] do
    let path := "/" ++ "/".intercalate (tree.home.take depth ++ [Program.environmentFile])
    if let .ok body ← (IO.FS.readBinFile path).toBaseIO then
      tree := tree.withFile path body
  return tree

def readEnvironment : IO Environment := do
  let names := [Settings.scriptVariable, Settings.outputVariable]
  let values ← names.mapM fun name => return (name, ← IO.getEnv name)
  return KeyMap.ofList (values.filterMap fun (name, v) => v.map fun v => (name, v.toUTF8))

/-- Carries a delivery out. -/
def deliver : Delivery → IO Unit
  | .print text => IO.print text
  | .write path text => do
    IO.FS.writeBinFile path text.toUTF8
    IO.eprintln (LogLine.info ("Wrote guild configuration to " ++ path)).shown

/-- Runs the program in an environment that is set up. -/
def compileIn (env : Environment) (tree : Tree ByteArray) : IO Ending := do
  let (result, log) := Program.produce env tree
  for line in log do
    if line.level = .info then IO.eprintln line.shown
  let outcome ← match result with
    | .ok d => (deliver d).toBaseIO
    | .error e => pure (.error (IO.userError e.message))
  match outcome with
  | .ok () => return .success
  | .error e =>
    IO.eprintln ("ERROR Failed to compile guild script: " ++ toString e)
    return .failure

end GuildPlan.CommandLine

open GuildPlan CommandLine in
def main : IO UInt32 := do
  let tree ← readTree
  let ending ← match Program.environment? (← readEnvironment) tree with
    | some env => compileIn env (← readBeside ((env.text? Settings.scriptVariable).getD "") tree)
    | none => pure .broken
  return ending.exitCode.toUInt32
