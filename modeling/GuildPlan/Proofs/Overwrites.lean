import GuildPlan.Proofs.Bytes
import GuildPlan.Proofs.Inheritance
import GuildPlan.Proofs.Sample

/-
  Overrides in the form of the remote platform. The settings of an override and the two sets
  of an overwrite say the same thing as long as every explicit setting has a bit, since no
  two permissions share one. Inheritance is then a formula on the sets.
-/
namespace GuildPlan

/-! ## One bit for each permission -/

namespace Permission

theorem mem_table {key : String} {n : Nat} (known : bit? key = some n) : (key, n) ∈ table :=
  mem_of_lookup known

theorem bit_lt {key : String} {n : Nat} (known : bit? key = some n) : n < 64 := by
  have all : ∀ e ∈ table, e.2 < 64 := by decide
  exact all _ (mem_table known)

/-- No two permissions have one bit. -/
theorem key_eq_of_bit {key other : String} {n : Nat} (known : bit? key = some n)
    (same : bit? other = some n) : key = other := by
  have distinct : (table.map Prod.snd).Nodup := by decide
  have equal := List.inj_on_of_nodup_map distinct (mem_table known) (mem_table same) rfl
  exact congrArg Prod.fst equal

theorem flag_of_bit {key : String} {n : Nat} (known : bit? key = some n) :
    flag? key = some (BitVec.twoPow 64 n) := by
  rw [flag?, known]
  rfl

theorem flag_eq_none_iff {key : String} : flag? key = none ↔ bit? key = none :=
  Option.map_eq_none_iff

end Permission

theorem PermissionBits.getLsbD_or_twoPow (bits : PermissionBits) {n : Nat} (bound : n < 64)
    (i : Nat) : (bits ||| BitVec.twoPow 64 n).getLsbD i = true ↔ bits.getLsbD i = true ∨ n = i := by
  simp [BitVec.getLsbD_or, BitVec.getLsbD_twoPow, bound]

/-! ## The pass over the settings -/

/-- An entry that is explicit about a permission without a bit. -/
def Unplaced (e : String × Setting) : Prop := e.2 ≠ .inherit ∧ Permission.bit? e.1 = none

/-- The bits `after` are those `before` and the ones of the permissions with a setting. -/
def Gathers (setting : Setting) (entries : List (String × Setting))
    (before after : PermissionBits) : Prop :=
  ∀ i, after.getLsbD i = true ↔
    before.getLsbD i = true ∨ ∃ key, (key, setting) ∈ entries ∧ Permission.bit? key = some i

namespace Gathers
variable {setting : Setting} {entries : List (String × Setting)} {before after : PermissionBits}
  {key : String}

/-- An entry with another setting adds nothing. -/
theorem skip {other : Setting} (apart : other ≠ setting)
    (h : Gathers setting entries before after) :
    Gathers setting ((key, other) :: entries) before after := by
  intro i
  have unequal (k : String) : (k, setting) ≠ (key, other) := fun same =>
    apart (congrArg Prod.snd same).symm
  simp only [h i, List.mem_cons, unequal, false_or]

/-- An entry with the setting adds its bit. -/
theorem add {n : Nat} (known : Permission.bit? key = some n)
    (h : Gathers setting entries (before ||| BitVec.twoPow 64 n) after) :
    Gathers setting ((key, setting) :: entries) before after := by
  intro i
  rw [h i, PermissionBits.getLsbD_or_twoPow before (Permission.bit_lt known)]
  constructor
  · rintro ((old | rfl) | ⟨k, mem, bit⟩)
    · exact .inl old
    · exact .inr ⟨key, List.mem_cons_self, known⟩
    · exact .inr ⟨k, List.mem_cons_of_mem _ mem, bit⟩
  · rintro (old | ⟨k, mem, bit⟩)
    · exact .inl (.inl old)
    · rcases List.mem_cons.1 mem with same | mem
      · cases same
        exact .inl (.inr (Option.some.inj (known.symm.trans bit)))
      · exact .inr ⟨k, mem, bit⟩

end Gathers

namespace Override

/-- An entry that is explicit about a permission without a bit ends the pass. -/
theorem bits_stop {e : String × Setting} (unplaced : Unplaced e)
    (rest : List (String × Setting)) (acc : PermissionBits × PermissionBits) :
    bits (e :: rest) acc = .error (.unknownPermission e.1) := by
  obtain ⟨key, setting⟩ := e
  obtain ⟨explicit, unknown⟩ := unplaced
  have none := Permission.flag_eq_none_iff.2 unknown
  cases setting with
  | inherit => exact absurd rfl explicit
  | allow => simp only [bits, none]
  | deny => simp only [bits, none]

/-- With any other entry the pass goes on, and what the rest gathers from there is gathered
from all of them. -/
theorem bits_step {e : String × Setting} (placed : ¬Unplaced e) (rest : List (String × Setting))
    (acc : PermissionBits × PermissionBits) :
    ∃ next : PermissionBits × PermissionBits, bits (e :: rest) acc = bits rest next ∧
      (∀ after, Gathers .allow rest next.1 after → Gathers .allow (e :: rest) acc.1 after) ∧
      (∀ after, Gathers .deny rest next.2 after → Gathers .deny (e :: rest) acc.2 after) := by
  obtain ⟨key, setting⟩ := e
  obtain ⟨allow, deny⟩ := acc
  by_cases explicit : setting = .inherit
  · subst explicit
    exact ⟨(allow, deny), rfl, fun _ => .skip (by decide), fun _ => .skip (by decide)⟩
  · obtain ⟨n, known⟩ := Option.ne_none_iff_exists'.1 fun unknown => placed ⟨explicit, unknown⟩
    have flag := Permission.flag_of_bit known
    cases setting with
    | inherit => exact absurd rfl explicit
    | allow =>
      refine ⟨(allow ||| BitVec.twoPow 64 n, deny), ?_, fun _ => .add known,
        fun _ => .skip (by decide)⟩
      simp only [bits, flag, if_true]
    | deny =>
      refine ⟨(allow, deny ||| BitVec.twoPow 64 n), ?_, fun _ => .skip (by decide),
        fun _ => .add known⟩
      simp only [bits, flag, reduceCtorEq, if_false]

/-- The pass ends at the first entry that is explicit about an unknown permission, and else
gathers the bits of both settings. -/
theorem bits_cases (entries : List (String × Setting)) (acc : PermissionBits × PermissionBits) :
    (∃ before e after, entries = before ++ e :: after ∧ (∀ e ∈ before, ¬Unplaced e) ∧
      Unplaced e ∧ bits entries acc = .error (.unknownPermission e.1)) ∨
    ((∀ e ∈ entries, ¬Unplaced e) ∧ ∃ allow deny, bits entries acc = .ok (allow, deny) ∧
      Gathers .allow entries acc.1 allow ∧ Gathers .deny entries acc.2 deny) := by
  -- The bits so far are general, since every entry may add one.
  induction entries generalizing acc with
  | nil =>
    refine .inr ⟨List.forall_mem_nil _, acc.1, acc.2, rfl, ?_, ?_⟩ <;> simp [Gathers]
  | cons e rest ih =>
    by_cases unplaced : Unplaced e
    · exact .inl ⟨[], e, rest, rfl, List.forall_mem_nil _, unplaced, bits_stop unplaced rest acc⟩
    · obtain ⟨next, step, allows, denies⟩ := bits_step unplaced rest acc
      rw [step]
      rcases ih next with ⟨before, stray, after, rfl, placed, isStray, failed⟩ |
        ⟨placed, allow, deny, passed, allowed, denied⟩
      · exact .inl ⟨e :: before, stray, after, rfl, List.forall_mem_cons.2 ⟨unplaced, placed⟩,
          isStray, failed⟩
      · exact .inr ⟨List.forall_mem_cons.2 ⟨unplaced, placed⟩, allow, deny, passed,
          allows allow allowed, denies deny denied⟩

end Override

/-! ## Overwrites and tables -/

/-- Of ascending entries the first of a kind has the least key. -/
theorem Ascending.not_lt_of_first {α : Type} {P : String × α → Prop} {e e' : String × α}
    {before after : List (String × α)} (ascending : Ascending (before ++ e :: after))
    (first : ∀ e ∈ before, ¬P e) (mem : e' ∈ before ++ e :: after) (holds : P e') :
    ¬e'.1 < e.1 := by
  intro less
  obtain ⟨-, behind, -⟩ := List.pairwise_append.1 ascending
  rcases List.mem_append.1 mem with ahead | mem
  · exact first e' ahead holds
  rcases List.mem_cons.1 mem with rfl | mem
  · exact String.lt_irrefl _ less
  · exact String.lt_asymm less ((List.pairwise_cons.1 behind).1 e' mem)

namespace PermissionTable
variable {t : PermissionTable} {setting : Setting} {bits : PermissionBits} {key : String}

/-- A permission that the table allows or denies, and that has no bit. -/
def Stray (t : PermissionTable) (key : String) : Prop :=
  (t.get? key = some .allow ∨ t.get? key = some .deny) ∧ Permission.flag? key = none

theorem stray_iff : t.Stray key ↔ ∃ e ∈ t.entries, e.1 = key ∧ Unplaced e := by
  unfold Stray Unplaced
  rw [Permission.flag_eq_none_iff]
  constructor
  · rintro ⟨found | found, unknown⟩
    · exact ⟨_, t.mem_entries.2 found, rfl, nofun, unknown⟩
    · exact ⟨_, t.mem_entries.2 found, rfl, nofun, unknown⟩
  · rintro ⟨⟨_, setting⟩, mem, rfl, explicit, unknown⟩
    have found := t.mem_entries.1 mem
    cases setting with
    | allow => exact ⟨.inl found, unknown⟩
    | deny => exact ⟨.inr found, unknown⟩
    | inherit => exact absurd rfl explicit

/-- The bits of the permissions that a table sets in one way. -/
def Grants (t : PermissionTable) (setting : Setting) (bits : PermissionBits) : Prop :=
  ∀ i, bits.getLsbD i = true ↔
    ∃ key, Permission.bit? key = some i ∧ t.get? key = some setting

theorem Grants.of_gathers (h : Gathers setting t.entries 0 bits) : t.Grants setting bits := by
  intro i
  rw [h i]
  simp [KeyMap.mem_entries, and_comm]

/-- A bit that stands for a permission is set as that one is: it is no other's. -/
theorem Grants.getLsbD_iff (h : t.Grants setting bits) {n : Nat}
    (known : Permission.bit? key = some n) : bits.getLsbD n = true ↔ t.get? key = some setting := by
  rw [h n]
  constructor
  · rintro ⟨other, same, found⟩
    exact Permission.key_eq_of_bit known same ▸ found
  · intro found
    exact ⟨key, known, found⟩

theorem Grants.known (h : t.Grants setting bits) {n : Nat} (set : bits.getLsbD n = true) :
    ∃ key, Permission.bit? key = some n := by
  obtain ⟨key, known, -⟩ := (h n).1 set
  exact ⟨key, known⟩

theorem Grants.unique {bits' : PermissionBits} (h : t.Grants setting bits)
    (h' : t.Grants setting bits') : bits = bits' :=
  BitVec.eq_of_getLsbD_eq fun i _ => Bool.eq_iff_iff.2 ((h i).trans (h' i).symm)

end PermissionTable

namespace Override

/-- Either a permission without a bit is named, with all explicit ones of smaller keys known,
or the two sets hold what the table says. -/
theorem overwrite_cases (o : Override) :
    (∃ key, o.permissions.Stray key ∧ (∀ other, o.permissions.Stray other → ¬other < key) ∧
      o.overwrite = .error (.unknownPermission key)) ∨
    ((∀ key, ¬o.permissions.Stray key) ∧ ∃ allow deny,
      o.overwrite = .ok { allow, deny, kind := o.kind, id := o.id } ∧
      o.permissions.Grants .allow allow ∧ o.permissions.Grants .deny deny) := by
  rcases bits_cases o.permissions.entries (0, 0) with
    ⟨before, e, after, whole, placed, unplaced, failed⟩ |
    ⟨placed, allow, deny, passed, allowed, denied⟩
  · have mem : e ∈ o.permissions.entries := whole ▸ List.mem_append_right _ List.mem_cons_self
    refine .inl ⟨e.1, PermissionTable.stray_iff.2 ⟨e, mem, rfl, unplaced⟩, ?_, ?_⟩
    · intro other stray
      obtain ⟨e', mem', rfl, unplaced'⟩ := PermissionTable.stray_iff.1 stray
      exact (whole ▸ o.permissions.ascending).not_lt_of_first placed (whole ▸ mem') unplaced'
    · rw [overwrite, failed]
      rfl
  · refine .inr ⟨?_, allow, deny, ?_, .of_gathers allowed, .of_gathers denied⟩
    · intro key stray
      obtain ⟨e, mem, -, unplaced⟩ := PermissionTable.stray_iff.1 stray
      exact placed e mem unplaced
    · rw [overwrite, passed]
      rfl

/-- An override is converted to exactly one overwrite, if all that it is explicit about is
known. -/
theorem overwrite_eq_ok {o : Override} {w : Overwrite} :
    o.overwrite = .ok w ↔ (∀ key, ¬o.permissions.Stray key) ∧
      o.permissions.Grants .allow w.allow ∧ o.permissions.Grants .deny w.deny ∧
      w.kind = o.kind ∧ w.id = o.id := by
  rcases o.overwrite_cases with ⟨key, stray, -, failed⟩ |
    ⟨known, allow, deny, passed, allowed, denied⟩
  · rw [failed]
    constructor
    · intro ok
      cases ok
    · intro h
      exact absurd stray (h.1 key)
  · rw [passed, Except.ok.injEq]
    constructor
    · rintro rfl
      exact ⟨known, allowed, denied, rfl, rfl⟩
    · obtain ⟨allow', deny', kind, id⟩ := w
      rintro ⟨-, allowed', denied', rfl, rfl⟩
      rw [allowed.unique allowed', denied.unique denied']

end Override

/-- An overwrite that says what an override says: a permission is in one of the two sets if
that is its setting, and nothing else is in either. -/
structure Overwrite.Matches (w : Overwrite) (o : Override) : Prop where
  disjoint : w.allow &&& w.deny = 0
  allowed : ∀ key n, Permission.bit? key = some n →
    (w.allow.getLsbD n = true ↔ o.permissions.get? key = some .allow)
  denied : ∀ key n, Permission.bit? key = some n →
    (w.deny.getLsbD n = true ↔ o.permissions.get? key = some .deny)
  known : ∀ n, w.allow.getLsbD n = true ∨ w.deny.getLsbD n = true →
    ∃ key, Permission.bit? key = some n
  kind : w.kind = o.kind
  id : w.id = o.id

theorem Overwrite.matches_of_overwrite {o : Override} {w : Overwrite} (ok : o.overwrite = .ok w) :
    w.Matches o := by
  obtain ⟨-, allowed, denied, kind, id⟩ := Override.overwrite_eq_ok.1 ok
  refine ⟨?_, fun _ _ => allowed.getLsbD_iff, fun _ _ => denied.getLsbD_iff, ?_, kind, id⟩
  · refine BitVec.eq_of_getLsbD_eq fun i _ => ?_
    rw [BitVec.getLsbD_and, show BitVec.getLsbD (0 : PermissionBits) i = false from
      BitVec.getLsbD_zero, Bool.and_eq_false_imp]
    intro allows
    refine Bool.eq_false_iff.2 fun denies => ?_
    obtain ⟨key, bit, found⟩ := (allowed i).1 allows
    have other := (denied.getLsbD_iff bit).1 denies
    exact absurd (found.symm.trans other) (by decide)
  · rintro n (set | set)
    · exact allowed.known set
    · exact denied.known set

/-- The conversion fails if and only if the override allows or denies a permission without a
bit, and then names the one whose key has the smallest bytes. Else the overwrite says what
the override says. -/
theorem overwrite_exact (o : Override) :
    match o.overwrite with
    | .error f => ∃ key, f = .unknownPermission key ∧ o.permissions.Stray key ∧
        ∀ other, o.permissions.Stray other → other ≠ key → Text.bytes key < Text.bytes other
    | .ok w => (∀ key, ¬o.permissions.Stray key) ∧ w.Matches o := by
  rcases o.overwrite_cases with ⟨key, stray, least, failed⟩ | ⟨known, allow, deny, passed, -, -⟩
  · rw [failed]
    refine ⟨key, rfl, stray, ?_⟩
    intro other also apart
    refine Text.lt_iff_bytes_lt.1 (Classical.byContradiction fun notLess => apart ?_)
    exact String.le_antisymm (String.not_lt.1 notLess) (String.not_lt.1 (least other also))
  · rw [passed]
    exact ⟨known, Overwrite.matches_of_overwrite passed⟩

open Sample in
/-- Two permissions without a bit are explicit here, and the first by its bytes is named; the
one that is left open does not count. -/
example : Override.overwrite { visitor with
    permissions := .ofList [("WHISPER", .deny), ("FLY", .allow), ("DANCE", .inherit)] } =
      .error (.unknownPermission "FLY") := by
  decide +kernel

/-! ## Inheritance -/

/-- A permission comes to be allowed, or denied, where it is so already or the parent's is and
the own one is open. -/
theorem Setting.filled_eq_some_iff {setting : Setting} (explicit : setting ≠ .inherit)
    (own parent : Option Setting) : filled own parent = some setting ↔
      own = some setting ∨ parent = some setting ∧ ¬(own = some .allow ∨ own = some .deny) := by
  cases setting with
  | inherit => exact absurd rfl explicit
  | allow => rcases own with _ | (_ | _ | _) <;> rcases parent with _ | (_ | _ | _) <;> decide
  | deny => rcases own with _ | (_ | _ | _) <;> rcases parent with _ | (_ | _ | _) <;> decide

/-- The same for whole sets. A bit stands for one permission, so that the formula on the
settings is one on the bits. -/
theorem PermissionTable.Grants.inheritFrom {own parent : PermissionTable} {setting : Setting}
    {allow deny mine parents : PermissionBits} (explicit : setting ≠ .inherit)
    (allowed : own.Grants .allow allow) (denied : own.Grants .deny deny)
    (ownBits : own.Grants setting mine) (parentBits : parent.Grants setting parents) :
    (PermissionTable.inheritFrom own parent).Grants setting
      (mine ||| (parents &&& ~~~(allow ||| deny))) := by
  intro n
  have bits : (mine ||| (parents &&& ~~~(allow ||| deny))).getLsbD n = true ↔
      mine.getLsbD n = true ∨ parents.getLsbD n = true ∧
        ¬(allow.getLsbD n = true ∨ deny.getLsbD n = true) := by
    have bound : parents.getLsbD n = true → n < 64 := BitVec.lt_of_getLsbD
    cases taken : parents.getLsbD n with
    | false => simp [taken]
    | true => simp [taken, bound taken]
  rw [bits]
  constructor
  · intro set
    obtain ⟨key, known⟩ : ∃ key, Permission.bit? key = some n :=
      set.elim ownBits.known fun set => parentBits.known set.1
    refine ⟨key, known, ?_⟩
    rw [PermissionTable.get?_inheritFrom, Setting.filled_eq_some_iff explicit]
    simpa only [ownBits.getLsbD_iff known, parentBits.getLsbD_iff known,
      allowed.getLsbD_iff known, denied.getLsbD_iff known] using set
  · rintro ⟨key, known, found⟩
    rw [PermissionTable.get?_inheritFrom, Setting.filled_eq_some_iff explicit] at found
    simpa only [ownBits.getLsbD_iff known, parentBits.getLsbD_iff known,
      allowed.getLsbD_iff known, denied.getLsbD_iff known] using found

theorem PermissionTable.Stray.of_inheritFrom {own parent : PermissionTable} {key : String}
    (h : (PermissionTable.inheritFrom own parent).Stray key) :
    own.Stray key ∨ parent.Stray key := by
  obtain ⟨explicit, unknown⟩ := h
  rw [PermissionTable.get?_inheritFrom, Setting.filled_eq_some_iff (by decide),
    Setting.filled_eq_some_iff (by decide)] at explicit
  rcases explicit with (own | ⟨parent, -⟩) | (own | ⟨parent, -⟩)
  · exact .inl ⟨.inl own, unknown⟩
  · exact .inr ⟨.inl parent, unknown⟩
  · exact .inl ⟨.inr own, unknown⟩
  · exact .inr ⟨.inr parent, unknown⟩

/-- Inheritance and conversion go together: what a parent allows or denies joins the child's
overwrite where the child's own is silent. -/
theorem overwrite_inheritFrom {child parent : Override} {own above : Overwrite}
    (childOk : child.overwrite = .ok own) (parentOk : parent.overwrite = .ok above) :
    (child.inheritFrom parent).overwrite = .ok
      { allow := own.allow ||| (above.allow &&& ~~~(own.allow ||| own.deny))
        deny := own.deny ||| (above.deny &&& ~~~(own.allow ||| own.deny))
        kind := child.kind, id := child.id } := by
  obtain ⟨known, allowed, denied, -, -⟩ := Override.overwrite_eq_ok.1 childOk
  obtain ⟨known', allowed', denied', -, -⟩ := Override.overwrite_eq_ok.1 parentOk
  refine Override.overwrite_eq_ok.2 ⟨?_, ?_, ?_, rfl, rfl⟩
  · intro key stray
    exact stray.of_inheritFrom.elim (known key) (known' key)
  · exact PermissionTable.Grants.inheritFrom (by decide) allowed denied allowed allowed'
  · exact PermissionTable.Grants.inheritFrom (by decide) allowed denied denied denied'

namespace Sample

/-- A visitor who may not write, with two permissions left open, one of them unknown. -/
def quietVisitor : Override :=
  { visitor with
    permissions := .ofList
      [("SEND_MESSAGES", .deny), ("VIEW_CHANNEL", .inherit), ("WHISPER", .inherit)] }

/-- What a category says of the same visitor. -/
def visitorAbove : Override :=
  { visitor with
    permissions := .ofList
      [("CONNECT", .deny), ("SEND_MESSAGES", .allow), ("VIEW_CHANNEL", .allow)] }

/-- The visitor may see the channel then, may not join it, and still may not write. -/
theorem quietVisitor_overwrite :
    quietVisitor.overwrite = .ok ⟨0, 2048, .user, visitor.id⟩ ∧
    visitorAbove.overwrite = .ok ⟨3072, 1048576, .user, visitor.id⟩ ∧
    (quietVisitor.inheritFrom visitorAbove).overwrite =
      .ok ⟨1024, 1050624, .user, visitor.id⟩ := by
  have own : quietVisitor.overwrite = .ok ⟨0, 2048, .user, visitor.id⟩ := by decide +kernel
  have above : visitorAbove.overwrite = .ok ⟨3072, 1048576, .user, visitor.id⟩ := by
    decide +kernel
  exact ⟨own, above, overwrite_inheritFrom own above⟩

end Sample
end GuildPlan
