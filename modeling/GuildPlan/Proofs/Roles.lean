import GuildPlan.Proofs.Fields

/-
  Roles that are read back. The permissions of a role that was read are known bits, written as
  the decimal number from which they are read again, and its color is a number of 24 bits, even
  where it was given by its hexadecimal digits.
-/
namespace GuildPlan

/-- What a role satisfies that was read. -/
structure Role.Valid (role : Role) : Prop where
  name : Text.allBlank role.name = false
  permissions : role.permissions &&& ~~~Permission.knownBits = 0
  color : ∀ n, role.color = some n → n ≤ 0xFFFFFF

/-! ## Colors -/

namespace Text

theorem hexDigit?_lt {c : Char} {d : Nat} (read : hexDigit? c = some d) : d < 16 := by
  unfold hexDigit? at read
  have bound {most : Char} (le : c ≤ most) : c.toNat ≤ most.toNat := UInt32.le_iff_toNat_le.1 le
  split at read
  · next inside =>
    have : c.toNat ≤ 57 := bound inside.2
    cases read
    show c.toNat - 48 < 16
    omega
  · split at read
    · next inside =>
      have : c.toNat ≤ 102 := bound inside.2
      cases read
      show c.toNat - 97 + 10 < 16
      omega
    · split at read
      · next inside =>
        have : c.toNat ≤ 70 := bound inside.2
        cases read
        show c.toNat - 65 + 10 < 16
        omega
      · cases read

theorem readHexDigits_lt {n m : Nat} {cs : List Char} (read : readHexDigits n cs = some m) :
    m < (n + 1) * Nat.pow 16 cs.length := by
  induction cs generalizing n with
  | nil =>
    cases read
    show _ < (_ + 1) * 1
    omega
  | cons c cs ih =>
    obtain ⟨d, digit, read⟩ := Option.bind_eq_some_iff.1 read
    have small := hexDigit?_lt digit
    calc m < (16 * n + d + 1) * Nat.pow 16 cs.length := ih read
      _ ≤ ((n + 1) * 16) * Nat.pow 16 cs.length := Nat.mul_le_mul_right _ (by omega)
      _ = (n + 1) * Nat.pow 16 (c :: cs).length := by
        rw [Nat.mul_assoc, Nat.mul_comm 16]
        rfl

theorem readHex_lt {m : Nat} {cs : List Char} (read : readHex cs = some m) :
    m < Nat.pow 16 cs.length := by
  unfold readHex at read
  split at read
  · cases read
  · cases read
  · next digits _ =>
    -- The sign is one of the characters, so the bound is not tight.
    have less := readHexDigits_lt read
    rw [Nat.zero_add, Nat.one_mul] at less
    exact Nat.lt_of_lt_of_le less (Nat.pow_le_pow_right (by decide) (Nat.le_succ _))
  · have less := readHexDigits_lt read
    rwa [Nat.zero_add, Nat.one_mul] at less

theorem length_le_utf8ByteSize (cs : List Char) : cs.length ≤ (String.ofList cs).utf8ByteSize := by
  induction cs with
  | nil => exact Nat.zero_le _
  | cons c cs ih =>
    have size := c.utf8Size_pos
    rw [String.ofList_cons, String.utf8ByteSize_append, String.utf8ByteSize_singleton,
      List.length_cons]
    omega

end Text

namespace Schema

theorem color?_le {v : Json} {n : Nat} (read : color? v = some n) : n ≤ 0xFFFFFF := by
  unfold color? at read
  split at read
  · unfold colorText? at read
    split at read
    · next digits _ =>
      split at read
      · next six =>
        -- Six bytes are at most six characters.
        have short : digits.length ≤ 6 := six ▸ Text.length_le_utf8ByteSize digits
        have less := Nat.lt_of_lt_of_le (Text.readHex_lt read)
          (Nat.pow_le_pow_right (by decide : 16 > 0) short)
        exact Nat.le_of_lt_succ less
      · cases read
    · cases read
  · exact of_decide_eq_true (Option.filter_eq_some_iff.1 read).2

theorem le_of_readColor {r : Record} {color : Option Nat} (ok : readColor r = .ok color) :
    ∀ n, color = some n → n ≤ 0xFFFFFF := by
  unfold readColor at ok
  split at ok
  · cases ok
    nofun
  · split at ok
    · next read =>
      cases ok
      rintro _ ⟨⟩
      exact color?_le read
    · cases ok

theorem readColor_of_get? {r : Record} {v : Json} {n : Nat} (found : r.get? "color" = some v)
    (read : color? v = some n) : readColor r = .ok (some n) := by
  unfold readColor
  rw [found]
  simp only [read]

theorem color?_of_int {n : Nat} (small : n ≤ 0xFFFFFF) : color? (.int n) = some n := by
  have fits : n < Nat.pow 2 64 := Nat.lt_of_le_of_lt small (by decide)
  show (Json.unsigned? (.int n)).filter (· ≤ 0xFFFFFF) = some n
  rw [Json.unsigned?_eq_some.2 ⟨rfl, fits⟩, Option.filter_some, if_pos (decide_eq_true small)]

theorem readColor_of_int {r : Record} {color : Option Nat}
    (found : r.members.get? "color" = color.map fun n => Json.int n)
    (small : ∀ n, color = some n → n ≤ 0xFFFFFF) : readColor r = .ok color := by
  cases color with
  | none =>
    have absent : r.get? "color" = none := congrArg (Option.filter _) found
    unfold readColor
    rw [absent]
  | some n =>
    exact readColor_of_get? (Record.get?_of_members found rfl) (color?_of_int (small n rfl))

/-! ## Permissions -/

theorem requireKnownBits_eq_ok {l : Location} {n : Nat} {bits : PermissionBits} :
    requireKnownBits l n = .ok bits ↔
      bits = BitVec.ofNat 64 n ∧ bits &&& ~~~Permission.knownBits = 0 := by
  unfold requireKnownBits
  dsimp only
  split
  · next known =>
    rw [Except.ok.injEq]
    exact ⟨fun same => ⟨same.symm, same ▸ known⟩, fun same => same.1.symm⟩
  · next unknown =>
    refine ⟨nofun, ?_⟩
    rintro ⟨rfl, known⟩
    exact absurd known unknown

theorem known_of_readBits {r : Record} {bits : PermissionBits} (ok : readBits r = .ok bits) :
    bits &&& ~~~Permission.knownBits = 0 := by
  unfold readBits at ok
  dsimp only at ok
  split at ok
  · cases ok
    decide
  · split at ok
    · exact (requireKnownBits_eq_ok.1 ok).2
    · cases ok
  · split at ok
    · exact (requireKnownBits_eq_ok.1 ok).2
    · split at ok <;> cases ok

theorem reads_bits : Reads "permissions" readBits := by
  intro r r' same
  have known (n : Nat) : Alike (r.place "permissions") (r'.place "permissions")
      (requireKnownBits (r.place "permissions") n) (requireKnownBits (r'.place "permissions") n) := by
    unfold requireKnownBits
    dsimp only
    split
    · exact .ok _
    · exact .here _
  unfold readBits
  dsimp only
  rw [← same]
  split
  · exact .ok _
  · split
    · exact known _
    · exact .here _
  · split
    · exact known _
    · split <;> exact .here _

theorem readBits_of_decimal {r : Record} {bits : PermissionBits}
    (found : r.members.get? "permissions" = some (.str (Text.decimal bits.toNat)))
    (known : bits &&& ~~~Permission.knownBits = 0) : readBits r = .ok bits := by
  have read : Text.readUnsigned (Text.trim (Text.decimal bits.toNat).toList) = .ok bits.toNat :=
    Text.readUnsigned_trim_eq_ok.2 ⟨Text.spells_decimal _, bits.isLt⟩
  unfold readBits
  rw [Record.get?_of_members found rfl]
  dsimp only
  rw [read]
  exact requireKnownBits_eq_ok.2 ⟨by simp, known⟩

end Schema

/-! ## Written roles -/

namespace Role

theorem keys_fields (role : Role) :
    role.fields.keys = ["id", "name", "permissions", "hoist", "mentionable"] ∨
      role.fields.keys = ["id", "name", "permissions", "color", "hoist", "mentionable"] := by
  unfold fields
  cases role.color with
  | none => exact .inl rfl
  | some n => exact .inr rfl

theorem nodup_keys_fields (role : Role) : role.fields.keys.Nodup := by
  rcases role.keys_fields with same | same <;> rw [same] <;> decide

theorem keys_fields_subset (role : Role) : role.fields.keys ⊆ Schema.roleFields := by
  rcases role.keys_fields with same | same <;> rw [same] <;> decide

theorem get?_color (role : Role) :
    role.fields.get? "color" = role.color.map fun n => Json.int n := by
  unfold fields
  cases role.color <;> rfl

theorem get?_hoist (role : Role) : role.fields.get? "hoist" = some (.bool role.hoist) := by
  unfold fields
  cases role.color <;> rfl

theorem get?_mentionable (role : Role) :
    role.fields.get? "mentionable" = some (.bool role.mentionable) := by
  unfold fields
  cases role.color <;> rfl

end Role

namespace Schema

theorem readRole_valid {location : Location} {v : Json} {role : Role}
    (ok : readRole location v = .ok role) : role.Valid := by
  unfold readRole at ok
  simp only [Checked.bind_eq_ok] at ok
  obtain ⟨r, _, _, _, id, _, name, named, bits, known, color, colored, _, _, _, _, ok⟩ := ok
  cases ok
  exact ⟨(Record.name_eq_ok.1 named).2, known_of_readBits known, le_of_readColor colored⟩

/-- A role that was read is read from what a script gets of it. -/
theorem readRole_toScript {role : Role} (valid : role.Valid) (location : Location) :
    readRole location role.toScript = .ok role := by
  let r : Record := ⟨location, Members.ofList role.fields⟩
  have found : ∀ key, r.members.get? key = role.fields.get? key := fun _ =>
    Members.get?_ofList role.nodup_keys_fields
  have known : r.rejectUnknown roleFields = .ok () :=
    Record.rejectUnknown_of_get? fun key other => (found key).trans
      (Members.get?_eq_none_iff.2 fun mem => other (role.keys_fields_subset mem))
  have id : r.snowflake "id" = .ok role.id := Record.snowflake_of_text (found "id")
  have name : r.name "name" = .ok role.name :=
    Record.name_eq_ok.2 ⟨Record.get?_of_members (found "name") rfl, valid.name⟩
  have permissions : readBits r = .ok role.permissions :=
    readBits_of_decimal (found "permissions") valid.permissions
  have color : readColor r = .ok role.color :=
    readColor_of_int ((found "color").trans role.get?_color) valid.color
  have hoist : r.optionalBool "hoist" = .ok (some role.hoist) :=
    Record.optionalBool_of_bool ((found "hoist").trans role.get?_hoist)
  have mentionable : r.optionalBool "mentionable" = .ok (some role.mentionable) :=
    Record.optionalBool_of_bool ((found "mentionable").trans role.get?_mentionable)
  have taken : Record.ofJson location role.toScript = .ok r := rfl
  unfold readRole
  rw [taken]
  simp only [Checked.ok_bind, known, id, name, permissions, color, hoist, mentionable]
  rfl

end Schema
end GuildPlan
