import GuildPlan.KeyMap
import GuildPlan.Text.Utf8

/-
  Environment variables. A value is bytes; only one that is text can be used.
-/
namespace GuildPlan

abbrev Environment := KeyMap ByteArray

/-- The value of a variable that is set to text. -/
def Environment.text? (env : Environment) (name : String) : Option String :=
  (env.get? name).bind Text.ofUtf8?

end GuildPlan
