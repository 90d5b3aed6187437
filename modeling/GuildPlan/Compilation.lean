import GuildPlan.Mount.Scan
import GuildPlan.Resolution
import GuildPlan.Script.Interpreter

/-
  From an entry script in a directory tree to the finished configuration.

  Every compilation runs on a machine that has run nothing before; only the log goes on.
-/
namespace GuildPlan
open Script

/-- Compiles the script at a path, on a platform. A script that is not there leaves the machine
as it is. -/
def compile (tree : Tree Source) (entry : String) (m : Machine) (p : Platform := .plain) :
    Except Failure Guild × Machine :=
  match MountTable.scan tree entry with
  | .error e => (.error e, m)
  | .ok scripts =>
    match evaluateEntry scripts (m.reset p) with
    | .error e m => (.error e, m)
    | .ok d m => resolve Machine.host d m

end GuildPlan
