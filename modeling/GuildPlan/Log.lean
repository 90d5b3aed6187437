/-
  Lines for the log.
-/
namespace GuildPlan

inductive LogLevel
  | debug
  | info
  deriving DecidableEq

structure LogLine where
  level : LogLevel
  text : String
  deriving DecidableEq

def LogLevel.text : LogLevel → String
  | .debug => "DEBUG"
  | .info => "INFO"

/-- The line as it is shown, its level in front. -/
def LogLine.shown (l : LogLine) : String := l.level.text ++ " " ++ l.text

def LogLine.debug (text : String) : LogLine := ⟨.debug, text⟩
def LogLine.info (text : String) : LogLine := ⟨.info, text⟩

end GuildPlan
