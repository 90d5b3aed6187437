import GuildPlan.Text.Printable
import GuildPlan.Text.Unsigned

/-
  The text of entry scripts: statements before the return, and statements of the setup.
-/
namespace GuildPlan.Fixture

/-- A character inside quotes, as an escape unless it is shown as it is. -/
def quotedChar (c : Char) : String :=
  if c = '"' then "\\\""
  else if c = '\\' then "\\\\"
  else if c = '\n' then "\\n"
  else if c = '\r' then "\\r"
  else if c = '\t' then "\\t"
  else if c.toNat = 0 then "\\0"
  else if Text.isPrintable c then c.toString
  else "\\u\x7b" ++ String.ofList (Nat.toDigits 16 c.toNat) ++ "\x7d"

/-- A text in quotes. -/
def quoted (s : String) : String := "\"" ++ String.join (s.toList.map quotedChar) ++ "\""

def defaultGuildId : String := "123456789012345678"

structure EntryScript where
  guildId : String := defaultGuildId
  /-- Statements that run before the script returns. -/
  opening : List String := []
  /-- Statements of the setup function. -/
  setup : List String := []

def EntryScript.text (e : EntryScript) : String :=
  String.join (e.opening.map (· ++ "\n")) ++
    "return \x7b\n  id = " ++ quoted e.guildId ++ ",\n  setup = function(ctx)\n" ++
    String.join (e.setup.map fun s => "    " ++ s ++ "\n") ++
    "  end,\n\x7d\n"

end GuildPlan.Fixture
