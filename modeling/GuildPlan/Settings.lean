import GuildPlan.Environment.Basic
import GuildPlan.Failure
import GuildPlan.Text.Blank

/-
  What the environment says of a compilation: which script, and where the result goes.
-/
namespace GuildPlan

structure Settings where
  /-- The path of the entry script. -/
  script : String
  /-- The path of the file for the artifact; without one it is printed. -/
  output : Option String
  deriving DecidableEq

namespace Settings

def scriptVariable : String := "GUILD_SCRIPT"
def outputVariable : String := "GUILD_OUTPUT"

/-- The settings of an environment. The script has to be named, even if by an empty text;
an output that is blank counts as none. -/
def ofEnvironment (env : Environment) : Except Failure Settings :=
  match env.text? scriptVariable with
  | none => .error (.missingVariable scriptVariable)
  | some script =>
    .ok { script, output := (env.text? outputVariable).filter (!Text.allBlank ·) }

end Settings
end GuildPlan
