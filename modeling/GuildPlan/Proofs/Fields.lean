import GuildPlan.Proofs.KeyMap
import GuildPlan.Proofs.Reading
import GuildPlan.Proofs.Spelling

/-
  Records field by field. A reader looks at one field and at nothing else, so all records with
  the same field are read alike, whatever else they hold and wherever they are: the place shows
  in refusals only, and a refusal is of the field or of a part of it. What is written field by
  field is found again under its names.
-/
namespace GuildPlan

/-! ## Values -/

/-- Every object in a value has its members in order, no two of them with one name. -/
inductive Json.Canonical : Json → Prop
  | null : Canonical .null
  | bool (b : Bool) : Canonical (.bool b)
  | int (n : Int) : Canonical (.int n)
  | float (x : Double) : Canonical (.float x)
  | str (s : String) : Canonical (.str s)
  | arr {items : List Json} (each : ∀ item ∈ items, item.Canonical) : Canonical (.arr items)
  | obj {members : Members} (ascending : Ascending members)
    (each : ∀ m ∈ members, m.2.Canonical) : Canonical (.obj members)

namespace Json

attribute [simp] Canonical.null Canonical.bool Canonical.int Canonical.float Canonical.str

@[simp] theorem canonical_arr {items : List Json} :
    (Json.arr items).Canonical ↔ ∀ item ∈ items, item.Canonical :=
  ⟨fun | .arr each => each, .arr⟩

@[simp] theorem canonical_obj {members : Members} :
    (Json.obj members).Canonical ↔ Ascending members ∧ ∀ m ∈ members, m.2.Canonical :=
  ⟨fun | .obj ascending each => ⟨ascending, each⟩, fun h => .obj h.1 h.2⟩

@[simp] theorem canonical_marker (h : Handle) : h.marker.Canonical := by
  simp [Handle.marker]

end Json

theorem ChannelKind.ofText?_name (kind : ChannelKind) : ofText? kind.name = some kind := by
  cases kind <;> rfl

theorem SubjectKind.ofText?_text (kind : SubjectKind) : ofText? kind.text = some kind := by
  cases kind <;> rfl

/-! ## Members -/

namespace Members
variable {ms ms' front extra : Members} {known : List String} {key : String}

theorem ofList_eq (ms : Members) : ofList ms = (KeyMap.ofList ms).entries :=
  (KeyMap.entries_ofList ms).symm

theorem ascending_ofList (ms : Members) : Ascending (ofList ms) :=
  ofList_eq ms ▸ (KeyMap.ofList ms).ascending

theorem get?_ofList (distinct : ms.keys.Nodup) : (ofList ms).get? key = ms.get? key := by
  rw [ofList_eq]
  exact KeyMap.get?_ofList distinct

/-- Members in order are determined by what is found among them. -/
theorem ext_get? (h : Ascending ms) (h' : Ascending ms')
    (same : ∀ key, ms.get? key = ms'.get? key) : ms = ms' :=
  congrArg KeyMap.entries (KeyMap.ext_get? (m := ⟨ms, h⟩) (n := ⟨ms', h'⟩) same)

theorem get?_eq_none_iff : ms.get? key = none ↔ key ∉ ms.keys := lookup_eq_none_iff

theorem get?_append : (front ++ extra).get? key = (front.get? key).or (extra.get? key) :=
  List.lookup_append

theorem ascending_without (known : List String) (h : Ascending ms) :
    Ascending (ms.without known) := h.filter _

theorem get?_without :
    (ms.without known).get? key = if key ∈ known then none else ms.get? key := by
  unfold get? without
  rw [lookup_filter (!known.contains ·)]
  by_cases taken : key ∈ known <;> simp [taken]

theorem mem_keys_without : key ∈ (ms.without known).keys ↔ key ∈ ms.keys ∧ key ∉ known := by
  simp [keys, without]

/-- Members that may stand beside known ones: in order, and under other names. -/
structure Beside (known : List String) (extra : Members) : Prop where
  ascending : Ascending extra
  others : ∀ key ∈ known, extra.get? key = none

theorem beside_without (known : List String) (h : Ascending ms) :
    Beside known (ms.without known) where
  ascending := ascending_without known h
  others _ mem := get?_without.trans (if_pos mem)

namespace Beside

theorem nodup_keys_append (h : Beside known extra) (distinct : front.keys.Nodup)
    (named : front.keys ⊆ known) : (front ++ extra).keys.Nodup := by
  have apart : ∀ key ∈ front.keys, key ∉ extra.keys := fun key mem =>
    get?_eq_none_iff.1 (h.others key (named mem))
  unfold keys
  rw [List.map_append]
  exact distinct.append h.ascending.nodup_keys fun key mem mem' => apart key mem mem'

theorem get?_ofList (h : Beside known extra) (distinct : front.keys.Nodup)
    (named : front.keys ⊆ known) :
    (ofList (front ++ extra)).get? key = if key ∈ known then front.get? key else extra.get? key := by
  rw [Members.get?_ofList (h.nodup_keys_append distinct named), get?_append]
  split
  · next mem => rw [h.others key mem, Option.or_none]
  · next other =>
    rw [get?_eq_none_iff.2 fun mem => other (named mem)]
    rfl

/-- Members that are found as they are beside known ones are what is left without these. -/
theorem without_eq (h : Beside known extra) (ascending : Ascending ms)
    (same : ∀ key ∉ known, ms.get? key = extra.get? key) : ms.without known = extra := by
  refine ext_get? (ascending_without known ascending) h.ascending fun key => ?_
  rw [get?_without]
  split
  · next mem => exact (h.others key mem).symm
  · next other => exact same key other

end Beside
end Members

/-! ## Places -/

/-- The part of a place to which some steps lead. -/
def Location.under (l : Location) (steps : List Step) : Location :=
  { l with steps := l.steps ++ steps }

theorem Location.under_nil (l : Location) : l.under [] = l := by simp [under]

theorem Location.field_under (l : Location) (key : String) (steps : List Step) :
    (l.field key).under steps = l.under (.field key :: steps) := by
  simp [field, under]

namespace Schema
variable {α β : Type}

/-- Answers about two places that differ in the place only: one result, or refusals of the same
part for the same reason. -/
inductive Alike (l l' : Location) : Checked α → Checked α → Prop
  | ok (a : α) : Alike l l' (.ok a) (.ok a)
  | refused (steps : List Step) (constraint : Constraint) :
    Alike l l' (.error ⟨l.under steps, constraint⟩) (.error ⟨l'.under steps, constraint⟩)

namespace Alike
variable {l l' : Location} {x y : Checked α}

theorem eq (h : Alike l l x y) : x = y := by cases h <;> rfl

theorem of_ok (h : Alike l l' x y) {a : α} (ok : x = .ok a) : y = .ok a := by
  cases h with
  | ok => exact ok
  | refused => cases ok

/-- The place itself is refused. -/
theorem here (constraint : Constraint) :
    Alike l l' (.error ⟨l, constraint⟩ : Checked α) (.error ⟨l', constraint⟩) := by
  have alike : Alike l l' (.error ⟨l.under [], constraint⟩ : Checked α)
      (.error ⟨l'.under [], constraint⟩) := .refused [] constraint
  rwa [Location.under_nil, Location.under_nil] at alike

theorem field {key : String} (h : Alike (l.field key) (l'.field key) x y) : Alike l l' x y := by
  cases h with
  | ok a => exact .ok a
  | refused steps constraint =>
    rw [Location.field_under, Location.field_under]
    exact .refused _ constraint

theorem bind {f g : α → Checked β} (first : Alike l l' x y) (rest : ∀ a, Alike l l' (f a) (g a)) :
    Alike l l' (x >>= f) (y >>= g) := by
  cases first with
  | ok a => exact rest a
  | refused steps constraint => exact .refused steps constraint

theorem map (f : α → β) (h : Alike l l' x y) : Alike l l' (x.map f) (y.map f) := by
  cases h with
  | ok a => exact .ok (f a)
  | refused steps constraint => exact .refused steps constraint

end Alike

theorem Checked.ok_bind (a : α) (f : α → Checked β) : Except.ok a >>= f = f a := rfl

/-! ## Fields -/

/-- A reader looks at one field: records with the same field are read alike, and a refusal is
of the field or of a part of it. -/
def Reads (key : String) (read : Record → Checked α) : Prop :=
  ∀ r r' : Record, r.get? key = r'.get? key → Alike (r.place key) (r'.place key) (read r) (read r')

/-- What is accepted at one place is accepted at any other. -/
theorem Reads.elsewhere {key : String} {read : Record → Checked α} (reads : Reads key read)
    {r : Record} {a : α} (ok : read r = .ok a) (l : Location) : read ⟨l, r.members⟩ = .ok a :=
  (reads r ⟨l, r.members⟩ rfl).of_ok ok

/-- Records at one place with the same field are read as one. -/
theorem Reads.congr {key : String} {read : Record → Checked α} (reads : Reads key read)
    {r r' : Record} (location : r.location = r'.location) (same : r.get? key = r'.get? key) :
    read r = read r' := by
  have alike := reads r r' same
  have place : r'.place key = r.place key := congrArg (Location.field · key) location.symm
  rw [place] at alike
  exact alike.eq

namespace Record
variable {key : String}

theorem snowflakeAt_alike (l l' : Location) (v : Json) :
    Alike l l' (snowflakeAt l v) (snowflakeAt l' v) := by
  unfold snowflakeAt
  split
  · exact .ok _
  · exact .here _

theorem reads_snowflake (key : String) : Reads key (snowflake · key) := by
  intro r r' same
  simp only [snowflake, ← same]
  split
  · exact .here _
  · exact snowflakeAt_alike _ _ _

theorem reads_name (key : String) : Reads key (name · key) := by
  intro r r' same
  simp only [name, ← same]
  split
  · exact .here _
  · split
    · exact .here _
    · exact .ok _
  · exact .here _

theorem reads_optionalString (key : String) : Reads key (optionalString · key) := by
  intro r r' same
  simp only [optionalString, ← same]
  split
  · exact .ok _
  · exact .ok _
  · exact .here _

theorem reads_optionalBool (key : String) : Reads key (optionalBool · key) := by
  intro r r' same
  simp only [optionalBool, ← same]
  split
  · exact .ok _
  · exact .ok _
  · exact .here _

theorem reads_optionalUnsigned (key : String) : Reads key (optionalUnsigned · key) := by
  intro r r' same
  simp only [optionalUnsigned, ← same]
  split
  · exact .ok _
  · split
    · exact .ok _
    · split <;> exact .here _

theorem reads_list (key : String) : Reads key (list · key) := by
  intro r r' same
  simp only [list, ← same]
  split
  · exact .ok _
  · exact .ok _
  · exact .ok _
  · exact .here _

theorem reads_kind {κ : Type} [DecidableEq κ] (key : String) (expected : Option κ)
    (ofText? : String → Option κ) (choices : String) :
    Reads key (kind · key expected ofText? choices) := by
  intro r r' same
  simp only [kind, ← same]
  split
  · split
    · exact .ok _
    · exact .here _
  · split
    · exact .here _
    · split
      · exact .ok _
      · exact .here _
  · exact .here _

theorem reads_predicate (key : String) : Reads key (predicate · key) := by
  intro r r' same
  simp only [predicate, ← same]
  split
  · exact .ok _
  · split
    · exact .ok _
    · exact .here _

end Record

/-! ## Accepted records -/

namespace Record
variable {r : Record} {key : String}

/-- What is a record at one place is one at any other, with the same members. -/
theorem ofJson_elsewhere {l : Location} {v : Json} (taken : ofJson l v = .ok r) (l' : Location) :
    ofJson l' v = .ok ⟨l', r.members⟩ := by
  unfold ofJson at *
  split at taken
  · cases taken
    rfl
  · cases taken
    rfl
  · cases taken

theorem canonical_of_ofJson {l : Location} {v : Json} (canonical : v.Canonical)
    (taken : ofJson l v = .ok r) :
    Ascending r.members ∧ ∀ m ∈ r.members, m.2.Canonical := by
  unfold ofJson at taken
  split at taken
  · cases taken
    exact Json.canonical_obj.1 canonical
  · cases taken
    exact ⟨.nil, List.forall_mem_nil _⟩
  · cases taken

theorem get?_of_members {v : Json} (found : r.members.get? key = some v)
    (there : v.isNull = false) : r.get? key = some v := by
  unfold get?
  rw [found, Option.filter_some, there]
  rfl

theorem get?_eq_of_members {r r' : Record} (same : r.members.get? key = r'.members.get? key) :
    r.get? key = r'.get? key := congrArg (Option.filter _) same

theorem snowflakeAt_eq_ok {l : Location} {v : Json} {id : Snowflake} :
    snowflakeAt l v = .ok id ↔ id.Spelled v := by
  rw [← snowflake?_eq_some]
  unfold snowflakeAt
  split
  · next found => rw [found, Except.ok.injEq, Option.some.injEq]
  · next found =>
    rw [found]
    exact ⟨nofun, nofun⟩

theorem snowflake_eq_ok {id : Snowflake} :
    r.snowflake key = .ok id ↔ ∃ v, r.get? key = some v ∧ id.Spelled v := by
  unfold snowflake
  split
  · next absent =>
    rw [absent]
    exact ⟨nofun, fun ⟨_, found, _⟩ => nomatch found⟩
  · next v found =>
    rw [snowflakeAt_eq_ok, found]
    exact ⟨fun spelled => ⟨v, rfl, spelled⟩, fun ⟨_, same, spelled⟩ => Option.some.inj same ▸ spelled⟩

/-- The written form of an id is read as the id. -/
theorem snowflake_of_text {id : Snowflake} (found : r.members.get? key = some (.str id.text)) :
    r.snowflake key = .ok id :=
  snowflake_eq_ok.2 ⟨_, get?_of_members found rfl, .text (Text.spells_decimal id.toNat)⟩

theorem optionalSnowflake_eq_ok {id : Option Snowflake} (ok : r.optionalSnowflake key = .ok id) :
    (id = none ∧ r.get? key = none) ∨ ∃ i, id = some i ∧ r.snowflake key = .ok i := by
  unfold optionalSnowflake at ok
  split at ok
  · next absent =>
    cases ok
    exact .inl ⟨rfl, absent⟩
  · next v found =>
    obtain ⟨i, read, rfl⟩ := Checked.map_eq_ok ok
    exact .inr ⟨i, rfl, snowflake_eq_ok.2 ⟨v, found, snowflakeAt_eq_ok.1 read⟩⟩

theorem name_eq_ok {s : String} :
    r.name key = .ok s ↔ r.get? key = some (.str s) ∧ Text.allBlank s = false := by
  unfold name
  split
  · next absent =>
    rw [absent]
    exact ⟨nofun, nofun⟩
  · next s' found =>
    rw [found]
    split
    · next blank =>
      refine ⟨nofun, ?_⟩
      rintro ⟨⟨⟩, solid⟩
      exact absurd blank (by simp [solid])
    · next solid =>
      constructor
      · rintro ⟨⟩
        exact ⟨rfl, eq_false_of_ne_true solid⟩
      · rintro ⟨⟨⟩, _⟩
        rfl
  · next other found =>
    rw [found]
    refine ⟨nofun, ?_⟩
    rintro ⟨same, _⟩
    exact absurd (Option.some.inj same) (other _)

theorem list_of_arr {items : List Json} (found : r.members.get? key = some (.arr items)) :
    r.list key = .ok items := by
  unfold list
  rw [get?_of_members found rfl]

/-- The items of a list are values in the record. -/
theorem canonical_of_list {vs : List Json} (canonical : ∀ m ∈ r.members, m.2.Canonical)
    (ok : r.list key = .ok vs) : ∀ v ∈ vs, v.Canonical := by
  cases vs with
  | nil => exact List.forall_mem_nil _
  | cons v vs => exact Json.canonical_arr.1 (canonical _ (mem_of_lookup (get?_of_list ok)))

theorem optionalBool_of_bool {b : Bool} (found : r.members.get? key = some (.bool b)) :
    r.optionalBool key = .ok (some b) := by
  unfold optionalBool
  rw [get?_of_members found rfl]

theorem rejectUnknown_of_get? {known : List String}
    (others : ∀ key ∉ known, r.members.get? key = none) : r.rejectUnknown known = .ok () := by
  have named : r.members.keys.find? (!known.contains ·) = none := by
    refine List.find?_eq_none.2 fun key mem => ?_
    by_contra other
    exact Members.get?_eq_none_iff.1 (others key (by simpa using other)) mem
  unfold rejectUnknown
  rw [named]

section Kinds
variable {κ : Type} [DecidableEq κ] {expected : Option κ} {ofText? : String → Option κ}
  {choices : String} {k k' : κ}

/-- The kind that is expected is the only one that is read. -/
theorem kind_of_expected (ok : r.kind key (some k) ofText? choices = .ok k') : k' = k := by
  unfold kind at ok
  split at ok
  · exact (Except.ok.inj ok).symm
  · split at ok
    · cases ok
    · split at ok
      · next agreed =>
        cases ok
        exact (of_decide_eq_true agreed).symm
      · cases ok
  · cases ok

theorem kind_of_text {s : String} (found : r.members.get? key = some (.str s))
    (read : ofText? s = some k) (agreed : expected = none ∨ expected = some k) :
    r.kind key expected ofText? choices = .ok k := by
  unfold kind
  rw [get?_of_members found rfl]
  dsimp only
  rw [read]
  dsimp only
  rw [if_pos]
  rcases agreed with rfl | rfl
  · rfl
  · exact decide_eq_true rfl

end Kinds
end Record

theorem readSettings_alike (l l' : Location) (members : Members) :
    Alike l l' (readSettings l members) (readSettings l' members) := by
  induction members with
  | nil => exact .ok _
  | cons m rest ih =>
    unfold readSettings
    split
    · exact .field (.here _)
    · exact ih.map _

theorem reads_permissions : Reads "permissions" readPermissions := by
  intro r r' same
  unfold readPermissions
  rw [← same]
  split
  · exact .ok _
  · exact .ok _
  · exact (readSettings_alike _ _ _).map _
  · exact .here _

/-- The options of a kind of channel are read alike where no field that is an option differs. -/
theorem checkOptions_alike {r r' : Record} (same : ∀ key ∉ channelFields, r.get? key = r'.get? key)
    (kind : ChannelKind) :
    Alike r.location r'.location (checkOptions r kind) (checkOptions r' kind) := by
  cases kind with
  | text =>
    refine .bind (Record.reads_optionalString "topic" r r' (same _ (by decide))).field fun _ => ?_
    refine .bind (Record.reads_optionalBool "nsfw" r r' (same _ (by decide))).field fun _ => ?_
    exact .bind (Record.reads_optionalUnsigned "slowmode" r r' (same _ (by decide))).field
      fun _ => .ok _
  | voice =>
    refine .bind (Record.reads_optionalUnsigned "bitrate" r r' (same _ (by decide))).field
      fun _ => ?_
    exact .bind (Record.reads_optionalUnsigned "user_limit" r r' (same _ (by decide))).field
      fun _ => .ok _

end Schema
end GuildPlan
