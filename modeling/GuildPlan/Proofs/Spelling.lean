import GuildPlan.Schema.Record
import Mathlib.Data.List.TakeWhile

/-
  The spellings of ids. A number may stand for itself, and a text spells one by its digits:
  zeros in front do not count, nor does a plus sign, nor do blanks around it. The id that is
  read is the number that is spelled, so two spellings of a number are one id, and the
  spelling that is written is read back.
-/
namespace GuildPlan

namespace Text

/-- The digits of a number, perhaps after a plus sign. -/
def Numeral (n : Nat) (cs : List Char) : Prop :=
  ∃ sign digits, cs = sign ++ digits ∧ (sign = [] ∨ sign = ['+']) ∧ digits ≠ [] ∧
    (∀ c ∈ digits, c.isDigit = true) ∧ Nat.ofDigitChars 10 digits 0 = n

/-- A text of a number: digits, perhaps after a plus sign, perhaps between blanks. -/
def Spells (n : Nat) (cs : List Char) : Prop :=
  ∃ before sign digits after, cs = before ++ (sign ++ digits) ++ after ∧
    (∀ c ∈ before ++ after, isBlank c = true) ∧ (sign = [] ∨ sign = ['+']) ∧
    digits ≠ [] ∧ (∀ c ∈ digits, c.isDigit = true) ∧ Nat.ofDigitChars 10 digits 0 = n

/-! ## Digits -/

theorem isDigit_iff {c : Char} : c.isDigit = true ↔ '0' ≤ c ∧ c ≤ '9' := by
  simp only [Char.isDigit, Bool.and_eq_true, decide_eq_true_eq]
  exact Iff.rfl

theorem digit?_eq_some {c : Char} {d : Nat} :
    digit? c = some d ↔ c.isDigit = true ∧ d = c.toNat - '0'.toNat := by
  unfold digit?
  rw [isDigit_iff]
  split
  · next inside => rw [and_iff_right inside, Option.some.injEq, eq_comm]
  · next outside => exact ⟨nofun, fun h => absurd h.1 outside⟩

theorem not_blank_of_isDigit {c : Char} (digit : c.isDigit = true) : isBlank c = false := by
  obtain ⟨least, most⟩ := isDigit_iff.1 digit
  have least : 48 ≤ c.toNat := UInt32.le_iff_toNat_le.1 least
  have most : c.toNat ≤ 57 := UInt32.le_iff_toNat_le.1 most
  simp only [isBlank, Bool.or_eq_false_iff, Bool.and_eq_false_iff, decide_eq_false_iff_not,
    beq_eq_false_iff_ne]
  omega

theorem le_ofDigitChars (n : Nat) (cs : List Char) : n ≤ Nat.ofDigitChars 10 cs n := by
  induction cs generalizing n with
  | nil => exact Nat.le_refl n
  | cons c cs ih =>
    rw [Nat.ofDigitChars_cons]
    exact Nat.le_trans (by omega) (ih _)

/-- Digits are read as the number that they denote, if it is in the range. -/
theorem readDigits_eq_ok {n m : Nat} {cs : List Char} (small : n < Nat.pow 2 64) :
    readDigits n cs = .ok m ↔
      (∀ c ∈ cs, c.isDigit = true) ∧ Nat.ofDigitChars 10 cs n = m ∧ m < Nat.pow 2 64 := by
  induction cs generalizing n with
  | nil =>
    constructor
    · rintro ⟨⟩
      exact ⟨List.forall_mem_nil _, rfl, small⟩
    · rintro ⟨_, rfl, _⟩
      rfl
  | cons c cs ih =>
    unfold readDigits
    rw [Nat.ofDigitChars_cons, List.forall_mem_cons]
    cases value : digit? c with
    | none =>
      have other : c.isDigit ≠ true := fun digit =>
        nomatch value.symm.trans (digit?_eq_some.2 ⟨digit, rfl⟩)
      exact ⟨nofun, fun h => absurd h.1.1 other⟩
    | some d =>
      obtain ⟨digit, rfl⟩ := digit?_eq_some.1 value
      dsimp only
      split
      · next fits => rw [ih fits, and_assoc, and_iff_right digit]
      · next large =>
        -- The number only grows, so it is out of the range in the end.
        refine ⟨nofun, fun ⟨_, same, fits⟩ => absurd ?_ large⟩
        exact Nat.lt_of_le_of_lt (same ▸ le_ofDigitChars _ cs) fits

/-! ## Signs and blanks -/

theorem not_isDigit_plus : '+'.isDigit ≠ true := by decide

/-- A sign is told from a digit, so that a text has one number at most. -/
theorem Numeral.unique {n m : Nat} {cs : List Char} (h : Numeral n cs) (h' : Numeral m cs) :
    n = m := by
  obtain ⟨sign, digits, rfl, signed, -, digital, rfl⟩ := h
  obtain ⟨sign', digits', same, signed', -, digital', rfl⟩ := h'
  rcases signed with rfl | rfl <;> rcases signed' with rfl | rfl
  · exact congrArg (Nat.ofDigitChars 10 · 0) same
  · cases same
    exact absurd (digital '+' List.mem_cons_self) not_isDigit_plus
  · cases same
    exact absurd (digital' _ List.mem_cons_self) not_isDigit_plus
  · exact congrArg (Nat.ofDigitChars 10 · 0) (List.cons.inj same).2

theorem readUnsigned_eq_ok {n : Nat} {cs : List Char} :
    readUnsigned cs = .ok n ↔ Numeral n cs ∧ n < Nat.pow 2 64 := by
  have positive : 0 < Nat.pow 2 64 := Nat.two_pow_pos 64
  constructor
  · intro ok
    unfold readUnsigned at ok
    split at ok
    · cases ok
    · cases ok
    · next digits more =>
      obtain ⟨digital, value, fits⟩ := (readDigits_eq_ok positive).1 ok
      refine ⟨⟨['+'], digits, rfl, .inr rfl, ?_, digital, value⟩, fits⟩
      rintro rfl
      exact more rfl
    · next some _ _ =>
      obtain ⟨digital, value, fits⟩ := (readDigits_eq_ok positive).1 ok
      exact ⟨⟨[], cs, rfl, .inl rfl, some, digital, value⟩, fits⟩
  · rintro ⟨⟨sign, digits, rfl, signed, some, digital, value⟩, fits⟩
    have ok := (readDigits_eq_ok positive).2 ⟨digital, value, fits⟩
    obtain ⟨c, cs, rfl⟩ := List.exists_cons_of_ne_nil some
    have digit : c.isDigit = true := digital c List.mem_cons_self
    rcases signed with rfl | rfl
    · unfold readUnsigned
      split
      · next empty => cases empty
      · next sign =>
        cases sign
        exact absurd digit not_isDigit_plus
      · next sign =>
        cases sign
        exact absurd digit not_isDigit_plus
      · exact ok
    · exact ok

theorem dropWhile_blanks {blanks cs : List Char} (blank : ∀ c ∈ blanks, isBlank c = true)
    (solid : ∀ c ∈ cs.head?, isBlank c = false) :
    (blanks ++ cs).dropWhile isBlank = cs := by
  rw [List.dropWhile_append_of_pos blank]
  cases cs with
  | nil => rfl
  | cons c cs => exact List.dropWhile_cons_of_neg (by simp [solid c rfl])

theorem trim_append {before cs after : List Char} (blank : ∀ c ∈ before ++ after, isBlank c = true)
    (solid : ∀ c ∈ cs, isBlank c = false) (some : cs ≠ []) :
    trim (before ++ cs ++ after) = cs := by
  obtain ⟨first, last⟩ := List.forall_mem_append.1 blank
  have head : (before ++ (cs ++ after)).dropWhile isBlank = cs ++ after := by
    refine dropWhile_blanks first fun c mem => ?_
    obtain ⟨c', cs, rfl⟩ := List.exists_cons_of_ne_nil some
    cases mem
    exact solid c List.mem_cons_self
  have tail : (after.reverse ++ cs.reverse).dropWhile isBlank = cs.reverse := by
    refine dropWhile_blanks (fun c mem => last c (List.mem_reverse.1 mem)) fun c mem => ?_
    exact solid c (List.mem_reverse.1 (List.mem_of_mem_head? mem))
  unfold trim
  rw [List.append_assoc, head, List.reverse_append, tail, List.reverse_reverse]

/-- Trimming takes blanks away and nothing else. -/
theorem exists_blanks_trim (cs : List Char) : ∃ before after, cs = before ++ trim cs ++ after ∧
    ∀ c ∈ before ++ after, isBlank c = true := by
  let rest := cs.dropWhile isBlank
  refine ⟨cs.takeWhile isBlank, (rest.reverse.takeWhile isBlank).reverse, ?_, ?_⟩
  · have back : trim cs ++ (rest.reverse.takeWhile isBlank).reverse = rest := by
      unfold trim
      rw [← List.reverse_append, List.takeWhile_append_dropWhile, List.reverse_reverse]
    rw [List.append_assoc, back, List.takeWhile_append_dropWhile]
  · refine List.forall_mem_append.2 ⟨fun c mem => List.mem_takeWhile_imp mem, fun c mem => ?_⟩
    exact List.mem_takeWhile_imp (List.mem_reverse.1 mem)

/-- A text spells the number that is left of it without blanks. -/
theorem spells_iff {n : Nat} {cs : List Char} : Spells n cs ↔ Numeral n (trim cs) := by
  constructor
  · rintro ⟨before, sign, digits, after, rfl, blank, signed, some, digital, value⟩
    have solid : ∀ c ∈ sign ++ digits, isBlank c = false := by
      refine List.forall_mem_append.2 ⟨fun c mem => ?_, fun c mem => ?_⟩
      · rcases signed with rfl | rfl
        · cases mem
        · exact List.mem_singleton.1 mem ▸ rfl
      · exact not_blank_of_isDigit (digital c mem)
    rw [trim_append blank solid (List.append_ne_nil_of_right_ne_nil _ some)]
    exact ⟨sign, digits, rfl, signed, some, digital, value⟩
  · rintro ⟨sign, digits, same, numeral⟩
    obtain ⟨before, after, whole, blank⟩ := exists_blanks_trim cs
    exact ⟨before, sign, digits, after, same ▸ whole, blank, numeral⟩

/-- A text is read as the number that it spells, if the number is in the range. -/
theorem readUnsigned_trim_eq_ok {n : Nat} {cs : List Char} :
    readUnsigned (trim cs) = .ok n ↔ Spells n cs ∧ n < Nat.pow 2 64 := by
  rw [readUnsigned_eq_ok, spells_iff]

theorem spells_decimal (n : Nat) : Spells n (decimal n).toList := by
  refine ⟨[], [], Nat.toDigits 10 n, [], ?_, List.forall_mem_nil _, .inl rfl,
    Nat.toDigits_ne_nil, fun c mem => ?_, Nat.ofDigitChars_toDigits (by decide) (by decide)⟩
  · rw [decimal, String.toList_ofList, List.append_nil]
    rfl
  · exact Nat.isDigit_of_mem_toDigits (by decide) (by decide) mem

end Text

/-! ## Ids -/

namespace Snowflake

/-- A value that stands for an id. -/
inductive Spelled (id : Snowflake) : Json → Prop
  | number : Spelled id (.int id.toNat)
  | text {s : String} (digits : Text.Spells id.toNat s.toList) : Spelled id (.str s)

theorem ofText?_eq_some {s : String} {id : Snowflake} :
    ofText? s = some id ↔ Text.Spells id.toNat s.toList := by
  have read : ofText? s = some id ↔ Text.readUnsigned (Text.trim s.toList) = .ok id.toNat := by
    unfold ofText? Snowflake.read
    cases Text.readUnsigned (Text.trim s.toList) with
    | error e => exact ⟨nofun, nofun⟩
    | ok n =>
      rw [Except.ok.injEq]
      exact ofNat?_eq_some
  rw [read, Text.readUnsigned_trim_eq_ok, and_iff_left id.lt]

theorem ofText?_text (id : Snowflake) : ofText? id.text = some id :=
  ofText?_eq_some.2 (Text.spells_decimal id.toNat)

end Snowflake

theorem Json.unsigned?_eq_some {j : Json} {n : Nat} :
    j.unsigned? = some n ↔ j = .int n ∧ n < Nat.pow 2 64 := by
  constructor
  · intro read
    unfold unsigned? at read
    split at read
    · next m =>
      split at read
      · next fits =>
        obtain ⟨least, most⟩ := fits
        cases read
        have whole : (m.toNat : Int) = m := Int.toNat_of_nonneg least
        exact ⟨congrArg Json.int whole.symm, Int.ofNat_lt.1 (whole.symm ▸ most)⟩
      · cases read
    · cases read
  · rintro ⟨rfl, fits⟩
    have both : 0 ≤ (n : Int) ∧ (n : Int) < (Nat.pow 2 64 : Nat) :=
      ⟨Int.natCast_nonneg n, Int.ofNat_lt.2 fits⟩
    unfold unsigned?
    dsimp only
    rw [if_pos both, Int.toNat_natCast]

/-- A value is read as the id that it spells. -/
theorem Schema.Record.snowflake?_eq_some {v : Json} {id : Snowflake} :
    snowflake? v = some id ↔ id.Spelled v := by
  constructor
  · intro read
    unfold snowflake? at read
    split at read
    · exact .text (Snowflake.ofText?_eq_some.1 read)
    · obtain ⟨n, number, fits⟩ := Option.bind_eq_some_iff.1 read
      obtain ⟨rfl, _⟩ := Json.unsigned?_eq_some.1 number
      rw [Snowflake.ofNat?_eq_some.1 fits]
      exact .number
  · intro spelled
    cases spelled with
    | number =>
      show (Json.unsigned? (.int id.toNat)).bind Snowflake.ofNat? = some id
      rw [Json.unsigned?_eq_some.2 ⟨rfl, id.lt⟩]
      exact Snowflake.ofNat?_eq_some.2 rfl
    | text digits => exact Snowflake.ofText?_eq_some.2 digits

end GuildPlan
