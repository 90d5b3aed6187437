import GuildPlan.Proofs.Grammar
import GuildPlan.Proofs.Ordering
import GuildPlan.Proofs.Sample

/-
  Ids as the numbers that they are. Which texts are ids is told by their digits, up to the first
  number that takes more than 64 bits; zero is read but is no id. A number, every text of it and
  what is written for it are read as one id, so that two fields hold one id exactly if they hold
  one number, and a list goes by the numbers where it refuses an id that occurs twice.
-/
namespace GuildPlan

/-! ## Texts -/

namespace Snowflake

theorem ofNat?_eq_none {n : Nat} (fits : n < Nat.pow 2 64) : ofNat? n = none ↔ n = 0 := by
  rw [ofNat?, dite_eq_right_iff]
  constructor
  · intro outside
    by_contra positive
    cases outside ⟨Nat.pos_of_ne_zero positive, fits⟩
  · rintro rfl inside
    exact absurd inside.1 (Nat.lt_irrefl 0)

/-- What is read is the number that is spelled, as the id that it is. -/
theorem read_eq_ok {s : String} {id : Option Snowflake} : read s = .ok id ↔
    ∃ n, Text.Spells n s.toList ∧ n < Nat.pow 2 64 ∧ ofNat? n = id := by
  constructor
  · intro ok
    unfold read at ok
    cases number : Text.readUnsigned (Text.trim s.toList) with
    | error e =>
      rw [number] at ok
      cases ok
    | ok n =>
      rw [number] at ok
      obtain ⟨spelled, fits⟩ := Text.readUnsigned_trim_eq_ok.1 number
      exact ⟨n, spelled, fits, Except.ok.inj ok⟩
  · rintro ⟨n, spelled, fits, rfl⟩
    unfold read
    rw [Text.readUnsigned_trim_eq_ok.2 ⟨spelled, fits⟩]
    rfl

theorem read_eq_some {s : String} {id : Snowflake} :
    read s = .ok (some id) ↔ Text.Spells id.toNat s.toList := by
  rw [read_eq_ok]
  constructor
  · rintro ⟨n, spelled, -, same⟩
    exact ofNat?_eq_some.1 same ▸ spelled
  · intro spelled
    exact ⟨id.toNat, spelled, id.lt, ofNat?_eq_some.2 rfl⟩

theorem read_eq_none {s : String} : read s = .ok none ↔ Text.Spells 0 s.toList := by
  rw [read_eq_ok]
  constructor
  · rintro ⟨n, spelled, fits, zero⟩
    exact (ofNat?_eq_none fits).1 zero ▸ spelled
  · intro spelled
    have fits : 0 < Nat.pow 2 64 := Nat.two_pow_pos 64
    exact ⟨0, spelled, fits, (ofNat?_eq_none fits).2 rfl⟩

/-- A number is read as an id if it is positive and takes no more than 64 bits. -/
theorem exists_read_iff {s : String} {n : Nat} :
    (∃ id, read s = .ok (some id) ∧ id.toNat = n) ↔
      Text.Spells n s.toList ∧ 1 ≤ n ∧ n < Nat.pow 2 64 := by
  constructor
  · rintro ⟨id, ok, rfl⟩
    exact ⟨read_eq_some.1 ok, id.pos, id.lt⟩
  · rintro ⟨spelled, positive, fits⟩
    exact ⟨⟨n, positive, fits⟩, read_eq_some.2 spelled, rfl⟩

theorem exists_read_error_iff {s : String} : (∃ why, read s = .error why) ↔
    ∀ n < Nat.pow 2 64, ¬Text.Spells n s.toList := by
  constructor
  · rintro ⟨why, failed⟩ n fits spelled
    cases failed.symm.trans (read_eq_ok.2 ⟨n, spelled, fits, rfl⟩)
  · intro other
    cases result : read s with
    | error why => exact ⟨why, rfl⟩
    | ok id =>
      obtain ⟨n, spelled, fits, -⟩ := read_eq_ok.1 result
      exact absurd spelled (other n fits)

end Snowflake

theorem Text.Spells.unique {n m : Nat} {cs : List Char} (h : Spells n cs) (h' : Spells m cs) :
    n = m :=
  (spells_iff.1 h).unique (spells_iff.1 h')

/-! ## Values -/

/-- The number that a value denotes: an integer, or the text of one. -/
inductive Json.Denotes : Json → Nat → Prop
  | int (n : Nat) : Denotes (.int n) n
  | text {s : String} {n : Nat} (spelled : Text.Spells n s.toList) : Denotes (.str s) n

/-- A value that is no text and no positive integer. -/
inductive Json.Numberless : Json → Prop
  | null : Numberless .null
  | bool (b : Bool) : Numberless (.bool b)
  | int {z : Int} (least : z ≤ 0) : Numberless (.int z)
  | float (x : Double) : Numberless (.float x)
  | arr (items : List Json) : Numberless (.arr items)
  | obj (members : Members) : Numberless (.obj members)

/-- The number that an object has for its id. -/
inductive Json.Identified : Json → Nat → Prop
  | field {ms : Members} {v : Json} {n : Nat} (there : ms.get? "id" = some v)
    (denoted : v.Denotes n) : Identified (.obj ms) n

theorem Json.Denotes.unique {v : Json} {n m : Nat} (h : v.Denotes n) (h' : v.Denotes m) :
    n = m := by
  cases h with
  | int => cases h' with | int => rfl
  | text spelled => cases h' with | text spelled' => exact spelled.unique spelled'

theorem Snowflake.spelled_iff {id : Snowflake} {v : Json} : id.Spelled v ↔ v.Denotes id.toNat := by
  constructor
  · rintro (_ | digits)
    · exact .int id.toNat
    · exact .text digits
  · generalize number : id.toNat = n
    rintro (_ | spelled)
    · exact number ▸ .number
    · exact .text (number ▸ spelled)

theorem Json.Numberless.not_denotes {v : Json} (h : v.Numberless) (id : Snowflake) :
    ¬v.Denotes id.toNat := by
  intro denotes
  have positive := id.pos
  cases h with
  | int least =>
    generalize id.toNat = n at *
    cases denotes
    omega
  | null | bool | float | arr | obj => cases denotes

namespace Schema
namespace Record
variable {l : Location} {v : Json}

theorem snowflakeAt_iff {id : Snowflake} : snowflakeAt l v = .ok id ↔ v.Denotes id.toNat := by
  rw [snowflakeAt_eq_ok, Snowflake.spelled_iff]

theorem snowflakeAt_error (h : v.Numberless) :
    snowflakeAt l v = .error ⟨l, .snowflake (shown v)⟩ := by
  cases result : snowflakeAt l v with
  | ok id => exact absurd (snowflakeAt_iff.1 result) (h.not_denotes id)
  | error e =>
    unfold snowflakeAt at result
    split at result
    · cases result
    · exact result.symm

/-- Ids that are read from two values are one id if the values denote one number. -/
theorem eq_iff_of_snowflakeAt {l' : Location} {w : Json} {a b : Snowflake} {m n : Nat}
    (first : snowflakeAt l v = .ok a) (second : snowflakeAt l' w = .ok b) (denoted : v.Denotes m)
    (denoted' : w.Denotes n) : a = b ↔ m = n := by
  rw [← (snowflakeAt_iff.1 first).unique denoted, ← (snowflakeAt_iff.1 second).unique denoted']
  constructor
  · rintro rfl
    rfl
  · exact Snowflake.eq_of_toNat_eq

end Record

/-! ## Lists of overrides -/

/-- Overrides have the numbers for ids that their arguments have. -/
theorem ids_of_forms {vs : List Json} {overrides : List Override} {ns : List Nat}
    (formed : List.Forall₂ (fun v o => Override.Form o v) vs overrides)
    (identified : List.Forall₂ Json.Identified vs ns) :
    overrides.map (·.id.toNat) = ns := by
  induction formed generalizing ns with
  | nil =>
    cases identified
    rfl
  | @cons v o vs overrides form _ ih =>
    obtain ⟨n, ns, ⟨there, denoted⟩, others, rfl⟩ := List.forall₂_cons_left_iff.1 identified
    obtain ⟨⟨w, there', spelled⟩, -, -, -⟩ := form
    cases there.symm.trans there'
    have same : o.id.toNat = n := (Snowflake.spelled_iff.1 spelled).unique denoted
    rw [List.map_cons, same, ih others]

/-- Arguments that are each accepted are accepted as a list exactly if no two of them have one
number for an id. -/
theorem readOverrides_isOk_iff {l : Location} {vs : List Json} {ns : List Nat}
    (each : ∀ v ∈ vs, ∃ place o, readOverride place v = .ok o)
    (identified : List.Forall₂ Json.Identified vs ns) :
    (∃ overrides, readOverrides l vs = .ok overrides) ↔ ns.Nodup := by
  have read {overrides : List Override} : readOverrides l vs = .ok overrides ↔
      List.Forall₂ (fun v o => Override.Form o v) vs overrides ∧
        (overrides.map Override.id).Nodup := by
    unfold readOverrides
    simp only [Checked.bind_eq_ok, readItems_eq_ok readOverride_eq_ok, requireUnique_eq_ok]
    constructor
    · rintro ⟨overrides, formed, _, distinct, ok⟩
      cases ok
      exact ⟨formed, distinct⟩
    · rintro ⟨formed, distinct⟩
      exact ⟨overrides, formed, (), distinct, rfl⟩
  have numbers {overrides : List Override}
      (formed : List.Forall₂ (fun v o => Override.Form o v) vs overrides) :
      (overrides.map Override.id).Nodup ↔ ns.Nodup := by
    have same : overrides.map (·.id.toNat) = (overrides.map Override.id).map Snowflake.toNat := by
      rw [List.map_map]
      rfl
    have injective : Function.Injective Snowflake.toNat := fun _ _ => Snowflake.eq_of_toNat_eq
    rw [← ids_of_forms formed identified, same, List.nodup_map_iff injective]
  constructor
  · rintro ⟨overrides, ok⟩
    obtain ⟨formed, distinct⟩ := read.1 ok
    exact (numbers formed).1 distinct
  · intro distinct
    have forms : ∀ v ∈ vs, ∃ o : Override, o.Form v := by
      intro v mem
      obtain ⟨place, o, ok⟩ := each v mem
      exact ⟨o, (readOverride_eq_ok place v o).1 ok⟩
    obtain ⟨overrides, formed⟩ := exists_forall₂.2 forms
    exact ⟨overrides, read.2 ⟨formed, (numbers formed).2 distinct⟩⟩

/-! ## The syntax of ids -/

/-- Texts are read as the ids that they spell, as no id where they spell zero, and not at all else.
The text of an id is read as that id, as are the number and every other text of it, and nothing
but these. Two fields so have one id exactly if they denote one number, and that is how a list
tells whether an id occurs twice. -/
theorem ids_are_numbers :
    (∀ (s : String) (n : Nat), (∃ id, Snowflake.read s = .ok (some id) ∧ id.toNat = n) ↔
      Text.Spells n s.toList ∧ 1 ≤ n ∧ n < Nat.pow 2 64) ∧
    (∀ s : String, Snowflake.read s = .ok none ↔ Text.Spells 0 s.toList) ∧
    (∀ s : String, (∃ why, Snowflake.read s = .error why) ↔
      ∀ n < Nat.pow 2 64, ¬Text.Spells n s.toList) ∧
    (∀ id : Snowflake, Snowflake.read id.text = .ok (some id)) ∧
    (∀ (l : Location) (v : Json) (id : Snowflake),
      Record.snowflakeAt l v = .ok id ↔ v.Denotes id.toNat) ∧
    (∀ (l : Location) (v : Json), v.Numberless →
      Record.snowflakeAt l v = .error ⟨l, .snowflake (Record.shown v)⟩) ∧
    (∀ (l l' : Location) (v w : Json) (a b : Snowflake) (m n : Nat),
      Record.snowflakeAt l v = .ok a → Record.snowflakeAt l' w = .ok b →
      v.Denotes m → w.Denotes n → (a = b ↔ m = n)) ∧
    (∀ (l : Location) (vs : List Json) (ns : List Nat),
      (∀ v ∈ vs, ∃ place o, readOverride place v = .ok o) → List.Forall₂ Json.Identified vs ns →
      ((∃ overrides, readOverrides l vs = .ok overrides) ↔ ns.Nodup)) := by
  refine ⟨?_, ?_, ?_, ?_, ?_, ?_, ?_, ?_⟩
  · intro s n
    exact Snowflake.exists_read_iff
  · intro s
    exact Snowflake.read_eq_none
  · intro s
    exact Snowflake.exists_read_error_iff
  · intro id
    exact Snowflake.read_eq_some.2 (Text.spells_decimal id.toNat)
  · intro l v id
    exact Record.snowflakeAt_iff
  · intro l v numberless
    exact Record.snowflakeAt_error numberless
  · intro l l' v w a b m n first second denoted denoted'
    exact Record.eq_iff_of_snowflakeAt first second denoted denoted'
  · intro l vs ns each identified
    exact readOverrides_isOk_iff each identified

end Schema

namespace Sample

/-- An override for a role that leaves everything open. -/
def openRole (id : Json) : Json := .obj [("id", id), ("type", .str "role")]

/-- `" +005"` and 5 are one id, so that a list has room for one of them, while 7 is another and
`false` is none. -/
theorem ids_are_numbers_five :
    Snowflake.read " +005" = .ok (some visitor.id) ∧ visitor.id ≠ residents.id ∧
    Schema.Record.snowflakeAt ⟨"id", []⟩ (.bool false) =
      .error ⟨⟨"id", []⟩, .snowflake "boolean"⟩ ∧
    ¬∃ overrides, Schema.readOverrides ⟨"overrides", []⟩
      [openRole (.str " +005"), openRole (.int 5)] = .ok overrides := by
  obtain ⟨_, _, _, _, _, others, same, lists⟩ := Schema.ids_are_numbers
  have text : Snowflake.read " +005" = .ok (some visitor.id) := rfl
  have spelled : (Json.str " +005").Denotes 5 := .text (Snowflake.read_eq_some.1 text)
  have apart : visitor.id = residents.id ↔ 5 = 7 :=
    same ⟨"id", []⟩ ⟨"id", []⟩ _ (.int 7) _ _ 5 7 rfl rfl spelled (.int 7)
  refine ⟨text, mt apart.1 (by decide), others _ _ (.bool false), fun accepted => ?_⟩
  have each : ∀ v ∈ [openRole (.str " +005"), openRole (.int 5)],
      ∃ place o, Schema.readOverride place v = .ok o := by
    rw [List.forall_mem_cons, List.forall_mem_singleton]
    exact ⟨⟨⟨"", []⟩, _, rfl⟩, ⟨⟨"", []⟩, _, rfl⟩⟩
  have identified : List.Forall₂ Json.Identified
      [openRole (.str " +005"), openRole (.int 5)] [5, 5] :=
    .cons (.field rfl spelled) (.cons (.field rfl (.int 5)) .nil)
  exact absurd ((lists _ _ _ each identified).1 accepted) (by decide)

end Sample
end GuildPlan
