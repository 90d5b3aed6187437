import GuildPlan.Text.Unsigned

/-
  Ids of the platform: nonzero unsigned 64-bit numbers, written in decimal and ordered as
  numbers.
-/
namespace GuildPlan

structure Snowflake where
  toNat : Nat
  pos : 0 < toNat
  lt : toNat < Nat.pow 2 64
  deriving DecidableEq

namespace Snowflake

def ofNat? (n : Nat) : Option Snowflake :=
  if h : 0 < n ∧ n < Nat.pow 2 64 then some ⟨n, h.1, h.2⟩ else none

/-- The id in decimal. -/
def text (id : Snowflake) : String := Text.decimal id.toNat

/-- Reads an id between blanks; zero is read but is no id. -/
def read (s : String) : Except Text.UnsignedError (Option Snowflake) :=
  (Text.readUnsigned (Text.trim s.toList)).map ofNat?

/-- The id that a text denotes, if it denotes one. -/
def ofText? (s : String) : Option Snowflake :=
  match read s with
  | .ok id => id
  | .error _ => none

theorem ofNat?_eq_some {n : Nat} {id : Snowflake} : ofNat? n = some id ↔ n = id.toNat := by
  constructor
  · intro h
    simp only [ofNat?] at h
    split at h
    · exact (congrArg Snowflake.toNat (Option.some.inj h)).symm ▸ rfl
    · exact nomatch h
  · rintro rfl
    exact dif_pos ⟨id.pos, id.lt⟩

end Snowflake
end GuildPlan
