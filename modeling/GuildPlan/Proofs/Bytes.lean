import Mathlib.Tactic.SplitIfs

/-
  Texts and their bytes. The order of texts is that of their code points, and it is the order
  of their bytes as well: a code point has a greater first byte than another, or an equal one
  and then a greater second byte, and so on, if and only if it is greater itself.
-/
namespace GuildPlan.Text

/-- The bytes of a text in UTF-8. -/
def bytes (s : String) : List UInt8 := s.toUTF8.data.toList

theorem bytes_eq (s : String) : bytes s = s.toList.flatMap String.utf8EncodeChar := by
  rw [bytes, String.toUTF8_eq_toByteArray, ← String.utf8Encode_toList, List.utf8Encode,
    List.data_toByteArray]

/-- The bytes of two characters already tell which is smaller, whatever comes behind them. -/
theorem utf8EncodeChar_lt {c d : Char} (less : c < d) (after after' : List UInt8) :
    String.utf8EncodeChar c ++ after < String.utf8EncodeChar d ++ after' := by
  have points : c.val.toNat < d.val.toNat := less
  have bound : d.val.toNat < 0x110000 := by
    rcases d.valid with h | h <;> omega
  unfold String.utf8EncodeChar
  dsimp only
  generalize c.val.toNat = m at *
  generalize d.val.toNat = n at *
  have small : ∀ k < 256, k % 2 ^ 8 = k := fun k => Nat.mod_eq_of_lt
  -- The digits to base 64 are compared from the front.
  have leading (k : Nat) : m / k < n / k ∨ m / k = n / k :=
    Nat.lt_or_eq_of_le (Nat.div_le_div_right (Nat.le_of_lt points))
  have first := leading 262144
  have second := leading 4096
  have third := leading 64
  split_ifs
  all_goals
    simp (disch := omega) only [List.cons_append, List.nil_append, List.cons_lt_cons_iff,
      UInt8.lt_iff_toNat_lt, ← UInt8.toNat_inj, UInt8.toNat_ofNat', small]
    rcases first with first | first
    · omega
    rcases second with second | second
    · omega
    rcases third with third | third <;> omega

theorem bytes_lt_of_lt {s t : String} (less : s < t) : bytes s < bytes t := by
  have ordered := String.lt_iff.1 less
  rw [bytes_eq, bytes_eq]
  generalize s.toList = cs at *
  generalize t.toList = ds at *
  induction ordered with
  | @nil d ds =>
    obtain ⟨b, rest, coded⟩ := List.exists_cons_of_ne_nil (String.utf8EncodeChar_ne_nil (c := d))
    rw [List.flatMap_cons, coded]
    exact .nil
  | cons _ ih =>
    rw [List.flatMap_cons, List.flatMap_cons]
    exact List.append_left_lt ih
  | rel less =>
    rw [List.flatMap_cons, List.flatMap_cons]
    exact utf8EncodeChar_lt less _ _

/-- Texts are in the order of their bytes. -/
theorem lt_iff_bytes_lt {s t : String} : s < t ↔ bytes s < bytes t := by
  refine ⟨bytes_lt_of_lt, ?_⟩
  intro less
  refine Decidable.byContradiction fun other => ?_
  by_cases greater : t < s
  · exact List.lt_asymm less (bytes_lt_of_lt greater)
  · have same : s = t := String.le_antisymm (String.not_lt.1 greater) (String.not_lt.1 other)
    subst same
    exact List.lt_irrefl _ less

end GuildPlan.Text
