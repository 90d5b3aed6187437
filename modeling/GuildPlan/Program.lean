import GuildPlan.Compilation
import GuildPlan.Environment.File
import GuildPlan.Script.Document
import GuildPlan.Settings

/-
  The program as a whole, on a directory tree and an environment: it compiles the script
  that the environment names and delivers the artifact in one piece, to a file or to the
  standard output, or fails and delivers nothing.
-/
namespace GuildPlan
open Script

/-- Where the artifact is to go. -/
inductive Delivery
  | print (text : String)
  | write (path text : String)

/-- How the program ends. It breaks off where not even its environment can be set up. -/
inductive Ending
  | success
  | failure
  | broken
  deriving DecidableEq

/-- The number that tells the caller of the program how it ended. -/
def Ending.exitCode : Ending → UInt8
  | .success => 0
  | .failure => 1
  | .broken => 101

/-- What a run amounts to: how it ended, what it printed, and the tree it leaves. -/
structure Outcome where
  ending : Ending
  output : String
  tree : Tree ByteArray

/-- The delivery of an artifact that the settings ask for. -/
def Settings.delivery (s : Settings) (text : String) : Delivery :=
  match s.output with
  | none => .print (text ++ "\n")
  | some path => .write path text

/-- The end of a run that delivers nothing. -/
def Outcome.without (ending : Ending) (tree : Tree ByteArray) : Outcome :=
  { ending, output := "", tree }

/-- The end of a run that has come to a delivery; a file is written as a whole or not. -/
def Delivery.outcome (tree : Tree ByteArray) : Delivery → Outcome
  | .print text => { ending := .success, output := text, tree }
  | .write path text =>
    match tree.write? path text.toUTF8 with
    | some tree => .without .success tree
    | none => .without .failure tree

namespace Program

/-- The file that adds to the environment. -/
def environmentFile : String := ".env"

/-- What is in the environment file of a directory, whose names are given from the last to the
first, or else of the nearest directory above it where there is a file to be read. -/
def nearest? (tree : Tree ByteArray) : List String → Option ByteArray
  | [] => tree.read? ("/" ++ environmentFile)
  | name :: above =>
    (tree.read? ("/" ++ "/".intercalate ((name :: above).reverse ++ [environmentFile]))).or
      (nearest? tree above)

/-- The environment with what the environment file adds to it, unless that file cannot be
loaded. -/
def environment? (env : Environment) (tree : Tree ByteArray) : Option Environment :=
  match nearest? tree tree.home.reverse with
  | some content => env.load? content
  | none => some env

/-- What is to be delivered, and the log of the compilation. -/
def produce (env : Environment) (tree : Tree ByteArray) (p : Platform := .plain) :
    Except Failure Delivery × List LogLine :=
  match Settings.ofEnvironment env with
  | .error e => (.error e, [])
  | .ok settings =>
    let (result, m) := compile (tree.map p.read) settings.script (.boot p) p
    (result.map fun guild => settings.delivery guild.text, m.log.toList)

/-- A run of the program on a platform. -/
def run (env : Environment) (tree : Tree ByteArray) (p : Platform := .plain) : Outcome :=
  match environment? env tree with
  | none => .without .broken tree
  | some env =>
    match (produce env tree p).1 with
    | .error _ => .without .failure tree
    | .ok d => d.outcome tree

end Program
end GuildPlan
