import GuildPlan.Json.Basic
import GuildPlan.Text.Unsigned

/-
  Arguments for declarations with ids that were not given out before.
-/
namespace GuildPlan.Fixture

/-- The source of new ids. -/
structure IdSource where
  next : Nat := 1000000

/-- A new id, and the source afterwards. -/
def IdSource.take (s : IdSource) : Nat × IdSource := (s.next, ⟨s.next + 1⟩)

/-- The argument of a role's declaration. -/
def roleRecord (id : Nat) (name : String) : Json :=
  .obj [("id", .str (Text.decimal id)), ("name", .str name)]

/-- An argument for each name, and the source afterwards. -/
def roleRecords (s : IdSource) : List String → List Json × IdSource
  | [] => ([], s)
  | name :: names =>
    let (id, s) := s.take
    let (rest, s) := roleRecords s names
    (roleRecord id name :: rest, s)

end GuildPlan.Fixture
