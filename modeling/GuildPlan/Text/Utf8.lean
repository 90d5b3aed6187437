import GuildPlan.Text.Unsigned

/-
  Bytes that may be UTF-8 text: the text, or the first place where they are none.

  A byte that begins no character, or that is not followed as it has to be, is blamed
  together with the bytes after it that still fitted. Bytes that end inside a character are
  incomplete.
-/
namespace GuildPlan.Text

/-- Where bytes stop to be text. -/
inductive Utf8Error
  | invalid (count index : Nat)
  | incomplete (index : Nat)
  deriving DecidableEq

def Utf8Error.message : Utf8Error → String
  | .invalid count index =>
    "invalid utf-8 sequence of " ++ decimal count ++ " bytes from index " ++ decimal index
  | .incomplete index => "incomplete utf-8 byte sequence from index " ++ decimal index

/-- The ranges of the bytes that follow a character's first byte. -/
def followers (b : UInt8) : Option (List (UInt8 × UInt8)) :=
  let any := (0x80, 0xBF)
  if b < 0x80 then some []
  else if b < 0xC2 then none
  else if b < 0xE0 then some [any]
  else if b = 0xE0 then some [(0xA0, 0xBF), any]
  else if b = 0xED then some [(0x80, 0x9F), any]
  else if b < 0xF0 then some [any, any]
  else if b = 0xF0 then some [(0x90, 0xBF), any, any]
  else if b < 0xF4 then some [any, any, any]
  else if b = 0xF4 then some [(0x80, 0x8F), any, any]
  else none

/-- How a run of bytes begins. -/
inductive Lead
  | char (length : Nat)
  | bad (length : Nat)
  | cut

/-- Matches bytes with the ranges they have to be in, `taken` of them before. -/
def matchFollowers (taken : Nat) : List (UInt8 × UInt8) → List UInt8 → Lead
  | [], _ => .char taken
  | _ :: _, [] => .cut
  | (low, high) :: ranges, b :: bs =>
    if low ≤ b ∧ b ≤ high then matchFollowers (taken + 1) ranges bs else .bad taken

def lead (b : UInt8) (bs : List UInt8) : Lead :=
  match followers b with
  | none => .bad 1
  | some ranges => matchFollowers 1 ranges bs

/-- The first place, from `index` on, where bytes stop to be text. -/
def utf8Error? : Nat → Nat → List UInt8 → Option Utf8Error
  | 0, _, _ => none
  | _, _, [] => none
  | fuel + 1, index, b :: bs =>
    match lead b bs with
    | .char n => utf8Error? fuel (index + n) (bs.drop (n - 1))
    | .bad n => some (.invalid n index)
    | .cut => some (.incomplete index)

/-- The text that bytes are, or where they stop to be text. -/
def ofUtf8 (bytes : ByteArray) : Except Utf8Error String :=
  match String.fromUTF8? bytes with
  | some s => .ok s
  | none => .error ((utf8Error? bytes.size 0 bytes.toList).getD (.incomplete 0))

def ofUtf8? (bytes : ByteArray) : Option String := String.fromUTF8? bytes

/-- The bytes of a text in which each run that is no text is replaced by one mark. -/
def mendBytes : Nat → List UInt8 → List UInt8
  | 0, _ => []
  | _, [] => []
  | fuel + 1, b :: bs =>
    match lead b bs with
    | .char n => (b :: bs).take n ++ mendBytes fuel (bs.drop (n - 1))
    | .bad n => [0xEF, 0xBF, 0xBD] ++ mendBytes fuel (bs.drop (n - 1))
    | .cut => [0xEF, 0xBF, 0xBD]

/-- The text that bytes are, with marks for what is none. -/
def mendUtf8 (bytes : ByteArray) : String :=
  match String.fromUTF8? bytes with
  | some s => s
  | none => (String.fromUTF8? ⟨(mendBytes bytes.size bytes.toList).toArray⟩).getD ""

end GuildPlan.Text
