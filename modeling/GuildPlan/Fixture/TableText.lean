import GuildPlan.Json.Printer

/-
  JSON values as the text of script tables: every key quoted in brackets, quotes and escapes
  as in JSON.
-/
namespace GuildPlan.Fixture

def braced (pieces : List String) : String :=
  if pieces.isEmpty then "\x7b\x7d" else "\x7b " ++ ", ".intercalate pieces ++ " \x7d"

mutual
/-- The text of a value; null becomes nil. -/
def tableText : Json → String
  | .null => "nil"
  | .arr items => braced (itemTexts items)
  | .obj members => braced (memberTexts members)
  | v => v.compact

def itemTexts : List Json → List String
  | [] => []
  | v :: vs => tableText v :: itemTexts vs

def memberTexts : List (String × Json) → List String
  | [] => []
  | (k, v) :: rest => ("[" ++ Json.quote k ++ "] = " ++ tableText v) :: memberTexts rest
end

end GuildPlan.Fixture
