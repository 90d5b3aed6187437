import GuildPlan.Proofs.Grammar
import GuildPlan.Proofs.Sample
import Mathlib.Data.Nat.Digits.Defs

/-
  Colors of roles. A color is an integer of 24 bits or a text of six hexadecimal digits after a
  number sign, and what a role stores is the number that they denote. One more text is read: a
  plus sign may stand where the first digit belongs, as it may in front of any number that is
  read in base 16. Beyond that nothing is a color, for any role that is valid without one.
-/
namespace GuildPlan

/-! ## Hexadecimal digits -/

namespace Text

/-- A hexadecimal digit, in either case, and its value. -/
def HexDigit (c : Char) (d : Nat) : Prop :=
  "0123456789abcdef".toList[d]? = some c ∨ "0123456789ABCDEF".toList[d]? = some c

instance (c : Char) (d : Nat) : Decidable (HexDigit c d) :=
  inferInstanceAs (Decidable (_ ∨ _))

/-- Some hexadecimal digits, and the number that they denote in base 16. -/
def HexDigits (cs : List Char) (n : Nat) : Prop :=
  ∃ ds, List.Forall₂ HexDigit cs ds ∧ Nat.ofDigits 16 ds.reverse = n

theorem HexDigit.lt {c : Char} {d : Nat} (h : HexDigit c d) : d < 16 := by
  rcases h with h | h
  · exact (List.getElem?_eq_some_iff.1 h).1
  · exact (List.getElem?_eq_some_iff.1 h).1

/-- What holds of all ASCII characters is found by trying them. -/
theorem of_ascii {P : Char → Prop} (each : ∀ n < 128, P (Char.ofNat n)) {c : Char}
    (small : c.toNat < 128) : P c := by
  have here := each c.toNat small
  rwa [Char.ofNat_toNat] at here

theorem lt_of_hexDigit? {c : Char} {d : Nat} (read : hexDigit? c = some d) : c.toNat < 128 := by
  unfold hexDigit? at read
  have bound {most : Char} (le : c ≤ most) : c.toNat ≤ most.toNat := UInt32.le_iff_toNat_le.1 le
  split at read
  · next inside => exact Nat.lt_of_le_of_lt (bound inside.2) (by decide)
  · split at read
    · next inside => exact Nat.lt_of_le_of_lt (bound inside.2) (by decide)
    · split at read
      · next inside => exact Nat.lt_of_le_of_lt (bound inside.2) (by decide)
      · cases read

theorem hexDigit?_eq_some {c : Char} {d : Nat} : hexDigit? c = some d ↔ HexDigit c d := by
  constructor
  · intro read
    have each : ∀ n < 128, ∀ d ∈ hexDigit? (Char.ofNat n), HexDigit (Char.ofNat n) d := by
      decide +kernel
    have small : c.toNat < 128 := lt_of_hexDigit? read
    exact of_ascii (P := fun c => ∀ d ∈ hexDigit? c, HexDigit c d) each small d read
  · intro digit
    have each : ∀ d < 16, "0123456789abcdef".toList[d]?.bind hexDigit? = some d ∧
        "0123456789ABCDEF".toList[d]?.bind hexDigit? = some d := by
      decide +kernel
    obtain ⟨lower, upper⟩ := each d digit.lt
    rcases digit with found | found
    · rwa [found] at lower
    · rwa [found] at upper

theorem HexDigit.utf8Size {c : Char} {d : Nat} (h : HexDigit c d) : c.utf8Size = 1 := by
  have each : ∀ n < 128, (Char.ofNat n).utf8Size = 1 := by decide +kernel
  exact of_ascii (P := fun c => c.utf8Size = 1) each (lt_of_hexDigit? (hexDigit?_eq_some.2 h))

theorem not_hexDigit_plus {d : Nat} : ¬HexDigit '+' d := by
  intro digit
  have none : hexDigit? '+' = none := by decide
  cases none.symm.trans (hexDigit?_eq_some.2 digit)

/-! ## Hexadecimal numbers -/

theorem hexDigits_nil {n : Nat} : HexDigits [] n ↔ n = 0 := by
  simp [HexDigits, eq_comm]

theorem hexDigits_cons {c : Char} {cs : List Char} {n : Nat} : HexDigits (c :: cs) n ↔
    ∃ d k, HexDigit c d ∧ HexDigits cs k ∧ d * 16 ^ cs.length + k = n := by
  constructor
  · rintro ⟨_, _ | ⟨digit, each⟩, rfl⟩
    refine ⟨_, _, digit, ⟨_, each, rfl⟩, ?_⟩
    simp [Nat.ofDigits_append, each.length_eq, Nat.mul_comm, Nat.add_comm]
  · rintro ⟨d, _, digit, ⟨ds, each, rfl⟩, rfl⟩
    refine ⟨d :: ds, .cons digit each, ?_⟩
    simp [Nat.ofDigits_append, each.length_eq, Nat.mul_comm, Nat.add_comm]

/-- The digits are read onto a number, which moves up by a place with each of them. -/
theorem readHexDigits_eq_some {n m : Nat} {cs : List Char} : readHexDigits n cs = some m ↔
    ∃ k, HexDigits cs k ∧ n * 16 ^ cs.length + k = m := by
  induction cs generalizing n with
  | nil => simp [readHexDigits, hexDigits_nil]
  | cons c cs ih =>
    have place (d : Nat) :
        (16 * n + d) * 16 ^ cs.length = n * 16 ^ (c :: cs).length + d * 16 ^ cs.length := by
      rw [List.length_cons, Nat.pow_succ]
      ring
    simp only [readHexDigits, Option.bind_eq_some_iff, ih, hexDigit?_eq_some, hexDigits_cons, place]
    constructor
    · rintro ⟨d, digit, k, digits, rfl⟩
      exact ⟨_, ⟨d, k, digit, digits, rfl⟩, (Nat.add_assoc _ _ _).symm⟩
    · rintro ⟨_, ⟨d, k, digit, digits, rfl⟩, rfl⟩
      exact ⟨d, digit, k, digits, Nat.add_assoc _ _ _⟩

/-- A hexadecimal number is read from its digits, and from a plus sign and its digits. -/
theorem readHex_eq_some {n : Nat} {cs : List Char} : readHex cs = some n ↔
    ∃ sign digits, cs = sign ++ digits ∧ (sign = [] ∨ sign = ['+']) ∧ digits ≠ [] ∧
      HexDigits digits n := by
  have read (digits : List Char) : readHexDigits 0 digits = some n ↔ HexDigits digits n := by
    simp [readHexDigits_eq_some]
  constructor
  · intro ok
    unfold readHex at ok
    split at ok
    · cases ok
    · cases ok
    · next digits more =>
      refine ⟨['+'], digits, rfl, .inr rfl, ?_, (read digits).1 ok⟩
      rintro rfl
      exact more rfl
    · next some _ _ => exact ⟨[], cs, rfl, .inl rfl, some, (read cs).1 ok⟩
  · rintro ⟨sign, digits, rfl, signed, some, denoted⟩
    have ok := (read digits).2 denoted
    obtain ⟨c, cs, rfl⟩ := List.exists_cons_of_ne_nil some
    rcases signed with rfl | rfl
    · obtain ⟨d, _, digit, -⟩ := hexDigits_cons.1 denoted
      unfold readHex
      split
      · next empty => cases empty
      · next sign =>
        cases sign
        exact absurd digit not_hexDigit_plus
      · next sign =>
        cases sign
        exact absurd digit not_hexDigit_plus
      · exact ok
    · exact ok

theorem HexDigits.utf8Size {cs : List Char} {n : Nat} (h : HexDigits cs n) :
    ∀ c ∈ cs, c.utf8Size = 1 := by
  obtain ⟨ds, each, -⟩ := h
  induction each with
  | nil => exact List.forall_mem_nil _
  | cons digit _ ih => exact List.forall_mem_cons.2 ⟨digit.utf8Size, ih⟩

theorem utf8ByteSize_eq_length {cs : List Char} (each : ∀ c ∈ cs, c.utf8Size = 1) :
    (String.ofList cs).utf8ByteSize = cs.length := by
  induction cs with
  | nil => rfl
  | cons c cs ih =>
    obtain ⟨size, others⟩ := List.forall_mem_cons.1 each
    rw [String.ofList_cons, String.utf8ByteSize_append, String.utf8ByteSize_singleton, size,
      ih others, List.length_cons, Nat.add_comm]

end Text

/-! ## Forms of colors -/

namespace Schema

/-- The forms in which a color is given: null for none, an integer of 24 bits, or a number sign
and six hexadecimal digits. -/
inductive ColorForm : Json → Option Nat → Prop
  | null : ColorForm .null none
  | number {n : Nat} (small : n ≤ 0xFFFFFF) : ColorForm (.int n) (some n)
  | digits {s : String} {cs : List Char} {n : Nat} (text : s.toList = '#' :: cs)
    (six : cs.length = 6) (denoted : Text.HexDigits cs n) : ColorForm (.str s) (some n)

/-- A number sign, a plus sign and five hexadecimal digits. -/
inductive SignedColor : Json → Option Nat → Prop
  | digits {s : String} {cs : List Char} {n : Nat} (text : s.toList = '#' :: '+' :: cs)
    (five : cs.length = 5) (denoted : Text.HexDigits cs n) : SignedColor (.str s) (some n)

theorem colorText?_eq_some {s : String} {n : Nat} : colorText? s = some n ↔
    ∃ sign digits, s.toList = '#' :: (sign ++ digits) ∧ (sign = [] ∨ sign = ['+']) ∧
      (sign ++ digits).length = 6 ∧ Text.HexDigits digits n := by
  have size {sign digits : List Char} (signed : sign = [] ∨ sign = ['+'])
      (denoted : Text.HexDigits digits n) :
      (String.ofList (sign ++ digits)).utf8ByteSize = (sign ++ digits).length := by
    refine Text.utf8ByteSize_eq_length (List.forall_mem_append.2 ⟨?_, denoted.utf8Size⟩)
    rcases signed with rfl | rfl
    · exact List.forall_mem_nil _
    · exact List.forall_mem_singleton.2 rfl
  constructor
  · intro read
    unfold colorText? at read
    split at read
    · next cs text =>
      split at read
      · next six =>
        obtain ⟨sign, digits, rfl, signed, -, denoted⟩ := Text.readHex_eq_some.1 read
        exact ⟨sign, digits, text, signed, size signed denoted ▸ six, denoted⟩
      · cases read
    · cases read
  · rintro ⟨sign, digits, text, signed, six, denoted⟩
    have some : digits ≠ [] := by
      rintro rfl
      rcases signed with rfl | rfl <;> cases six
    unfold colorText?
    simp only [text, (size signed denoted).trans six, if_true]
    exact Text.readHex_eq_some.2 ⟨sign, digits, rfl, signed, some, denoted⟩

theorem color?_eq_some {v : Json} {n : Nat} :
    color? v = some n ↔ ColorForm v (some n) ∨ SignedColor v (some n) := by
  constructor
  · intro read
    unfold color? at read
    split at read
    · next s =>
      obtain ⟨sign, digits, text, rfl | rfl, length, denoted⟩ := colorText?_eq_some.1 read
      · exact .inl (.digits text length denoted)
      · exact .inr (.digits text (Nat.succ.inj length) denoted)
    · obtain ⟨number, small⟩ := Option.filter_eq_some_iff.1 read
      obtain ⟨rfl, -⟩ := Json.unsigned?_eq_some.1 number
      exact .inl (.number (of_decide_eq_true small))
  · rintro ((_ | small | ⟨text, six, denoted⟩) | ⟨text, five, denoted⟩)
    · exact color?_of_int small
    · exact colorText?_eq_some.2 ⟨[], _, text, .inl rfl, six, denoted⟩
    · exact colorText?_eq_some.2 ⟨['+'], _, text, .inr rfl, congrArg Nat.succ five, denoted⟩

/-- A color that is given is read if it has one of the forms. -/
theorem readColor_eq_ok {r : Record} {v : Json} (given : r.members.get? "color" = some v)
    {color : Option Nat} :
    readColor r = .ok color ↔ ColorForm v color ∨ SignedColor v color := by
  constructor
  · intro ok
    unfold readColor at ok
    split at ok
    · next absent =>
      cases ok
      rcases Record.get?_eq_none.1 absent with lacking | null
      · cases given.symm.trans lacking
      · cases given.symm.trans null
        exact .inl .null
    · next w found =>
      cases given.symm.trans (Record.get?_eq_some.1 found).1
      split at ok
      · next read =>
        cases ok
        exact color?_eq_some.1 read
      · cases ok
  · intro formed
    cases color with
    | none =>
      have null : v = .null := by
        rcases formed with formed | formed <;> cases formed
        rfl
      unfold readColor
      rw [Record.get?_eq_none.2 (.inr (null ▸ given))]
    | some n =>
      have read := color?_eq_some.2 formed
      have solid : v.isNull = false := by
        cases v <;> first | rfl | cases read
      exact readColor_of_get? (Record.get?_of_members given solid) read

theorem readColor_error {r : Record} {e : Invalid} (failed : readColor r = .error e) :
    e = ⟨r.place "color", .color⟩ := by
  unfold readColor at failed
  split at failed
  · cases failed
  · split at failed
    · cases failed
    · exact (Except.error.inj failed).symm

/-! ## Colors of roles -/

/-- A role that is valid without a color is valid with one if the color is, and it is the same
otherwise. -/
theorem readRole_of_rest {l : Location} {ms : Members} {role : Role}
    (rest : readRole l (.obj (ms.without ["color"])) = .ok role) :
    readRole l (.obj ms) = (readColor ⟨l, ms⟩).map fun color => { role with color } := by
  unfold readRole at rest
  simp only [Checked.bind_eq_ok] at rest
  obtain ⟨_, taken, _, known, id, identified, name, named, bits, allowed, _, _, hoist, hoisted,
    mentionable, mentioned, ok⟩ := rest
  cases taken
  cases ok
  let r : Record := ⟨l, ms⟩
  -- No other reader looks at the color, so each finds what it found without it.
  have carry {α : Type} {key : String} {read : Record → Checked α} (reads : Reads key read)
      (other : key ∉ ["color"]) {a : α} (ok : read ⟨l, ms.without ["color"]⟩ = .ok a) :
      read r = .ok a := by
    have same : r.get? key = (⟨l, ms.without ["color"]⟩ : Record).get? key :=
      Record.get?_eq_of_members (Members.get?_without.trans (if_neg other)).symm
    rw [← ok]
    exact reads.congr rfl same
  have taken : Record.ofJson l (.obj ms) = .ok r := rfl
  have known : r.rejectUnknown roleFields = .ok () := by
    refine Record.rejectUnknown_eq_ok.2 fun key mem => ?_
    by_cases color : key ∈ ["color"]
    · exact List.mem_singleton.1 color ▸ by decide
    · exact Record.rejectUnknown_eq_ok.1 known key (Members.mem_keys_without.2 ⟨mem, color⟩)
  have identified := carry (Record.reads_snowflake "id") (by decide) identified
  have named := carry (Record.reads_name "name") (by decide) named
  have allowed := carry reads_bits (by decide) allowed
  have hoisted := carry (Record.reads_optionalBool "hoist") (by decide) hoisted
  have mentioned := carry (Record.reads_optionalBool "mentionable") (by decide) mentioned
  unfold readRole
  rw [taken]
  simp only [Checked.ok_bind, known, identified, named, allowed, hoisted, mentioned]
  cases readColor r <;> rfl

/-- If a role is valid but for its color, it is accepted exactly if the color has one of the forms
or has a plus sign in the place of the first digit, and stores the number that is denoted. With
anything else it is refused for the color. -/
theorem role_color_iff {l : Location} {ms : Members} {role : Role} {v : Json}
    (rest : readRole l (.obj (ms.without ["color"])) = .ok role)
    (given : ms.get? "color" = some v) :
    (∀ role', readRole l (.obj ms) = .ok role' ↔
      ∃ color, (ColorForm v color ∨ SignedColor v color) ∧ role' = { role with color }) ∧
    ((∀ color, ¬(ColorForm v color ∨ SignedColor v color)) →
      readRole l (.obj ms) = .error ⟨l.field "color", .color⟩) := by
  rw [readRole_of_rest rest]
  have accepted (color : Option Nat) :
      readColor ⟨l, ms⟩ = .ok color ↔ ColorForm v color ∨ SignedColor v color :=
    readColor_eq_ok given
  cases read : readColor ⟨l, ms⟩ with
  | ok color =>
    have formed := (accepted color).1 read
    refine ⟨fun role' => ?_, fun other => absurd formed (other color)⟩
    constructor
    · rintro ⟨⟩
      exact ⟨color, formed, rfl⟩
    · rintro ⟨color', formed', rfl⟩
      cases read.symm.trans ((accepted color').2 formed')
      rfl
  | error e =>
    refine ⟨fun role' => ⟨nofun, ?_⟩, fun _ => ?_⟩
    · rintro ⟨color, formed, rfl⟩
      cases read.symm.trans ((accepted color).2 formed)
    · exact congrArg Except.error (readColor_error read)

end Schema

namespace Sample

/-- The members of a role with a color that is given by a text. -/
def colored (color : String) : Members :=
  [("color", .str color), ("id", .str "7"), ("name", .str "residents")]

/-- The residents with a color. -/
def coloredResidents (color : Option Nat) : Role :=
  { id := residents.id, name := "residents", permissions := 0, color, hoist := false
    mentionable := false }

theorem role_color_iff_orange :
    Schema.readRole ⟨"role", []⟩ (.obj ((colored "#fF5733").without ["color"])) =
      .ok (coloredResidents none) ∧
    (colored "#fF5733").get? "color" = some (.str "#fF5733") ∧
    Schema.ColorForm (.str "#fF5733") (some 0xFF5733) ∧
    Schema.readRole ⟨"role", []⟩ (.obj (colored "#fF5733")) =
      .ok (coloredResidents (some 0xFF5733)) := by
  have rest : Schema.readRole ⟨"role", []⟩ (.obj ((colored "#fF5733").without ["color"])) =
      .ok (coloredResidents none) := by rfl
  have given : (colored "#fF5733").get? "color" = some (.str "#fF5733") := rfl
  have denoted : Text.HexDigits "fF5733".toList 0xFF5733 := by
    refine ⟨[15, 15, 5, 7, 3, 3], ?_, by decide⟩
    decide +kernel
  have formed : Schema.ColorForm (.str "#fF5733") (some 0xFF5733) := .digits rfl rfl denoted
  exact ⟨rest, given, formed, ((Schema.role_color_iff rest given).1 _).2 ⟨_, .inl formed, rfl⟩⟩

/-- A sign in the place of the first digit is accepted, although the text has none of the forms. -/
theorem signed_color_accepted :
    Schema.readRole ⟨"role", []⟩ (.obj (colored "#+12345")) =
      .ok (coloredResidents (some 0x12345)) ∧
    ∀ color, ¬Schema.ColorForm (.str "#+12345") color := by
  refine ⟨by rfl, fun color formed => ?_⟩
  cases formed with
  | digits text six denoted =>
    cases text
    obtain ⟨d, _, digit, -⟩ := Text.hexDigits_cons.1 denoted
    exact Text.not_hexDigit_plus digit

end Sample
end GuildPlan
