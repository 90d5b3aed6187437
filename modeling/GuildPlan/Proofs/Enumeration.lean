import GuildPlan.Proofs.Returning

/-
  The order in which entries are visited. A conversion looks at the entries of a table one after
  the other, in whatever order the table gives them. Whether it comes to a result does not depend
  on that order, and where no two entries of a table have one name and different values, neither
  does the result, but for the numbers of the handles. Where two entries have one name, the one
  that is visited later counts.
-/
namespace GuildPlan.Script

/-! ## Orders -/

/-- The same table, but for the order in which its entries are visited. -/
structure Table.Reordered (t t' : Table) : Prop extends t.Rearranged t' where
  length : t'.length = t.length

/-- The same tables, each of them visited in an order of its own. -/
def Heap.Reordered (h h' : Heap) : Prop := ∀ r, (h.table r).Reordered (h'.table r)

/-- The same entries in whatever order, taken for the same list or both for none. -/
structure Table.Likened (t t' : Table) : Prop extends t.Rearranged t' where
  full : t'.Full ↔ t.Full
  length : t.Full → t'.length = t.length

namespace Table
variable {t t' : Table} {n : Nat} {entries : List (Value × Value)}

theorem Reordered.refl (t : Table) : t.Reordered t := ⟨.refl t, rfl⟩

theorem Reordered.likened (same : t.Reordered t') : t.Likened t' where
  toRearranged := same.toRearranged
  full := by rw [Full, Full, same.length, same.entries.length_eq]
  length _ := same.length

theorem Likened.symm (same : t.Likened t') : t'.Likened t where
  toRearranged := same.toRearranged.symm
  full := same.full.symm
  length full := (same.length (same.full.1 full)).symm

theorem Border.perm (border : Border t.entries n) (p : t.entries.Perm entries) :
    Border entries n where
  last := border.last.imp_right (p.map Prod.fst).mem_iff.1
  next := mt (p.map Prod.fst).mem_iff.2 border.next

/-- The table with its entries in another order. -/
def reorder (t : Table) (p : t.entries.Perm entries) : Table :=
  { t with
    entries
    distinct := (p.map Prod.fst).nodup_iff.1 t.distinct
    filled := fun e mem => t.filled e (p.mem_iff.2 mem)
    bordered := t.bordered.perm p }

/-- The table with another of its borders. -/
def withBorder (t : Table) (border : Border t.entries n) : Table :=
  { t with length := n, bordered := border }

/-! ## Tables whose entries tell what they are -/

/-- Only a sequence has a border that is as great as the number of its entries. -/
def Evident (t : Table) : Prop :=
  ∀ n, Border t.entries n → 0 < n → t.entries.length = n → t.Sequence n

theorem Evident.likened (evident : t.Evident) (same : t.Rearranged t') : t.Likened t' := by
  -- A list is a sequence, and a sequence has one border only.
  have sequence : ∀ n, t.Sequence n → t'.Sequence n := fun n sequence =>
    ⟨sequence.pos, fun k => (same.mem_keys_iff k).trans (sequence.mem_keys k)⟩
  have forward : t.Full → t'.Sequence t.length := fun full =>
    sequence _ (evident _ t.bordered full.1 full.2)
  have backward : t'.Full → t'.Sequence t'.length := fun full =>
    sequence _ (evident _ (t'.bordered.perm same.entries.symm) full.1
      (same.entries.length_eq.trans full.2))
  refine ⟨same, ⟨fun full => ?_, fun full => (forward full).full⟩, fun full => (forward full).length⟩
  have back : t.Sequence t'.length :=
    ⟨(backward full).pos, fun k => (same.mem_keys_iff k).symm.trans ((backward full).mem_keys k)⟩
  exact back.full

/-- The items that are found from zero on are there. -/
theorem hasItem_of_le_lastFrom {fuel m i : Nat} (behind : m < i)
    (upTo : i ≤ lastFrom entries fuel m) : HasItem entries i := by
  induction fuel generalizing m with
  | zero =>
    rw [lastFrom] at upTo
    exact absurd upTo (Nat.not_le.2 behind)
  | succ fuel ih =>
    unfold lastFrom at upTo
    split at upTo
    · next there =>
      rcases Nat.eq_or_lt_of_le behind with same | behind
      · exact same ▸ there
      · exact ih behind upTo
    · exact absurd upTo (Nat.not_le.2 behind)

/-- A table that is no sequence has a border other than the number of its entries. -/
theorem exists_border_ne (pos : 0 < t.entries.length) (other : ¬ t.Sequence t.entries.length) :
    ∃ n, Border t.entries n ∧ n ≠ t.entries.length := by
  have border : Border t.entries (lastFrom t.entries t.entries.length 0) :=
    border_lastFrom (.inl rfl) List.countP_le_length
  refine ⟨_, border, fun whole => other ⟨pos, fun k => ?_⟩⟩
  have subset : indices t.entries.length ⊆ t.keys := by
    intro k mem
    obtain ⟨i, less, rfl⟩ := mem_indices.1 mem
    exact hasItem_of_le_lastFrom (Nat.succ_pos i) (Nat.le_trans less (Nat.le_of_eq whole.symm))
  have perm : (indices t.entries.length).Perm t.keys := by
    refine ((nodup_indices _).subperm subset).perm_of_length_le ?_
    rw [length_indices, keys, List.length_map]
  exact perm.symm.mem_iff.trans mem_indices

/-- A table that does not tell what it is can be taken for a list and for none. -/
theorem exists_border_of_not_evident (hidden : ¬ t.Evident) :
    ∃ n, ∃ border : Border t.entries n, ((t.withBorder border).Full ↔ ¬ t.Full) := by
  unfold Evident at hidden
  push Not at hidden
  obtain ⟨n, border, pos, sized, other⟩ := hidden
  subst sized
  by_cases full : t.Full
  · obtain ⟨m, border', apart⟩ := exists_border_ne pos other
    exact ⟨m, border', iff_of_false (fun full' => apart full'.2.symm) (not_not_intro full)⟩
  · exact ⟨_, border, iff_of_true ⟨pos, rfl⟩ full⟩

end Table

namespace Heap
variable {h h' : Heap} {v : Value} {r : TableRef}

theorem not_reaches (other : ∀ r, v ≠ .table r) (r : TableRef) : ¬h.Reaches v r := by
  intro reach
  cases reach with
  | here => exact absurd rfl (other _)
  | entry => exact absurd rfl (other _)

/-- The tables in a value are likened. -/
def Likened (h h' : Heap) (v : Value) : Prop :=
  ∀ r, h.Reaches v r → (h.table r).Likened (h'.table r)

/-- The tables in a value tell what they are. -/
def Evident (h : Heap) (v : Value) : Prop := ∀ r, h.Reaches v r → (h.table r).Evident

theorem Reordered.likened (same : h.Reordered h') (v : Value) : h.Likened h' v :=
  fun r _ => (same r).likened

theorem Evident.likened (evident : h.Evident v) (same : h.Rearranged h') : h.Likened h' v :=
  fun r reach => (evident r reach).likened (same r)

namespace Likened

theorem entry (same : h.Likened h' (.table r)) {e : Value × Value}
    (mem : e ∈ (h.table r).entries) : h.Likened h' e.2 :=
  fun r' below => same r' (.entry mem below)

theorem of_not_table (other : ∀ r, v ≠ .table r) : h.Likened h' v :=
  fun r reach => absurd reach (not_reaches other r)

/-- So are those in what is found under a key. -/
theorem get (same : h.Likened h' (.table r)) (key : Value) :
    h.Likened h' ((h.table r).get key) := by
  by_cases missing : (h.table r).get key = .nil
  · exact missing ▸ of_not_table nofun
  · exact same.entry ((h.table r).mem_of_get missing)

/-- The same tables are in the value on both sides. -/
theorem reaches (same : h.Likened h' v) (reach : h'.Reaches v r) : h.Reaches v r := by
  induction reach with
  | here r => exact .here r
  | @entry r _ e mem _ ih =>
    have mem := (same r (.here r)).entries.symm.mem_iff.1 mem
    exact .entry mem (ih (same.entry mem))

theorem symm (same : h.Likened h' v) : h'.Likened h v := fun r reach =>
  (same r (same.reaches reach)).symm

end Likened
end Heap

/-! ## Acceptance -/

variable {h h' : Heap} {g g' : Registry}

/-- A table is accepted if its items are, where it is taken for a list; otherwise if its entries
have names and their values are accepted. -/
theorem leaveWithin_accepts_table {depth : Nat} {p : Value → Prop} {r : TableRef}
    {location : Location}
    (decides : ∀ v place g, Accepts (leaveWithin h depth place v) g ↔ p v) :
    Accepts (leaveWithin h (depth + 1) location (.table r)) g ↔
      ((h.table r).Full → ∀ i : Nat, 0 < i → i ≤ (h.table r).length →
        p ((h.table r).get (.int i))) ∧
      (¬(h.table r).Full → ∀ e ∈ (h.table r).entries, e.1.Names ∧ p e.2) := by
  rw [leaveWithin]
  split
  · next full =>
    have full : (h.table r).Full := full
    rw [Accepts.bind_iff_of fun items g' _ => iff_true_intro (.pure (Json.arr items) g'), and_true,
      leaveItems_accepts fun i _ _ => decides _, Nat.zero_add]
    exact ⟨fun each => ⟨fun _ => each, fun other => absurd full other⟩, fun each => each.1 full⟩
  · next other =>
    have other : ¬(h.table r).Full := other
    rw [Accepts.bind_iff_of fun members g' _ => iff_true_intro (.pure (Json.obj members) g'),
      and_true, leaveEntries_accepts fun e _ => decides e.2]
    exact ⟨fun each => ⟨fun full => absurd full other, fun _ => each⟩, fun each => each.2 other⟩

/-- Whatever the place and the registry, the same values are accepted. -/
theorem leaveWithin_accepts_anywhere {depth : Nat} (v : Value) (l l' : Location)
    (g g' : Registry) :
    Accepts (leaveWithin h depth l v) g ↔ Accepts (leaveWithin h depth l' v) g' := by
  induction depth generalizing v l l' g g' with
  | zero =>
    rcases v.table_or_other with ⟨r, rfl⟩ | other
    · exact iff_of_false (Accepts.not_refuse _ _) (Accepts.not_refuse _ _)
    · rw [leaveWithin_accepts_plain other, leaveWithin_accepts_plain other]
  | succ depth ih =>
    rcases v.table_or_other with ⟨r, rfl⟩ | other
    · have below : ∀ v place g₁,
          Accepts (leaveWithin h depth place v) g₁ ↔ Accepts (leaveWithin h depth l v) g :=
        fun v place g₁ => ih v place l g₁ g
      rw [leaveWithin_accepts_table below, leaveWithin_accepts_table below]
    · rw [leaveWithin_accepts_plain other, leaveWithin_accepts_plain other]

/-- Whatever the order of the entries, the same values are accepted. -/
theorem leaveWithin_accepts_likened {depth : Nat} {v : Value} (same : h.Likened h' v)
    (l : Location) (g : Registry) :
    Accepts (leaveWithin h depth l v) g ↔ Accepts (leaveWithin h' depth l v) g := by
  -- Induction on the depth: below a table the order has been taken care of already.
  induction depth generalizing v with
  | zero =>
    rcases v.table_or_other with ⟨r, rfl⟩ | other
    · exact iff_of_false (Accepts.not_refuse _ _) (Accepts.not_refuse _ _)
    · rw [leaveWithin_accepts_plain other, leaveWithin_accepts_plain other]
  | succ depth ih =>
    rcases v.table_or_other with ⟨r, rfl⟩ | other
    · have t := same r (.here r)
      have first : ∀ v place g₁,
          Accepts (leaveWithin h depth place v) g₁ ↔ Accepts (leaveWithin h depth l v) g :=
        fun v place g₁ => leaveWithin_accepts_anywhere v place l g₁ g
      have second : ∀ v place g₁,
          Accepts (leaveWithin h' depth place v) g₁ ↔ Accepts (leaveWithin h' depth l v) g :=
        fun v place g₁ => leaveWithin_accepts_anywhere v place l g₁ g
      rw [leaveWithin_accepts_table first, leaveWithin_accepts_table second, t.full]
      refine and_congr (forall_congr' fun full => ?_) (forall_congr' fun _ => ?_)
      · rw [t.length full]
        simp only [t.get, ih (same.get _)]
      · simp only [t.entries.mem_iff.symm]
        exact forall_congr' fun e => forall_congr' fun mem =>
          and_congr_right fun _ => ih (same.entry mem)
    · rw [leaveWithin_accepts_plain other, leaveWithin_accepts_plain other]

/-! ## Results -/

/-- Two values that are one value once each handle is replaced by the function that it denotes, in
the one registry or in the other. -/
inductive Matches (g g' : Registry) : Json → Json → Prop
  | null : Matches g g' .null .null
  | bool (b : Bool) : Matches g g' (.bool b) (.bool b)
  | int (n : Int) : Matches g g' (.int n) (.int n)
  | float (x : Double) : Matches g g' (.float x) (.float x)
  | str (s : String) : Matches g g' (.str s) (.str s)
  | function {f : FunctionRef} {a b : Handle} (kept : g.get? a = some f)
    (kept' : g'.get? b = some f) : Matches g g' a.marker b.marker
  | arr {items items' : List Json} (sized : items.length = items'.length)
    (each : ∀ n (inside : n < items.length) (inside' : n < items'.length),
      Matches g g' items[n] items'[n]) : Matches g g' (.arr items) (.arr items')
  | obj {members members' : Members} (keys : members.keys = members'.keys)
    (each : ∀ key j j', members.get? key = some j → members'.get? key = some j' →
      Matches g g' j j') : Matches g g' (.obj members) (.obj members')

theorem Matches.eq_of_str {s : String} {j : Json} (same : Matches g g' (.str s) j) :
    j = .str s := by
  cases same
  rfl

/-- Objects that are no markers match member by member. -/
theorem Matches.of_obj {members members' : Members} (unreserved : markerKey ∉ members.keys)
    (same : Matches g g' (.obj members) (.obj members')) {key : String} {j j' : Json}
    (found : members.get? key = some j) (found' : members'.get? key = some j') :
    Matches g g' j j' := by
  generalize whole : Json.obj members = x at same
  generalize whole' : Json.obj members' = x' at same
  cases same with
  | obj _ each =>
    cases whole
    cases whole'
    exact each key j j' found found'
  | function =>
    cases whole
    exact absurd List.mem_cons_self unreserved
  | _ => cases whole

/-- In every table of a value that becomes an object, entries with one name have one value. -/
def Heap.Consistent (h : Heap) (v : Value) : Prop :=
  ∀ r, h.Reaches v r → ¬(h.table r).Full → ∀ e ∈ (h.table r).entries, ∀ e' ∈ (h.table r).entries,
    e.1.memberName? = e'.1.memberName? → e.2 = e'.2

theorem Heap.Consistent.entry {r : TableRef} {e : Value × Value}
    (consistent : h.Consistent (.table r)) (mem : e ∈ (h.table r).entries) : h.Consistent e.2 :=
  fun r' below => consistent r' (.entry mem below)

theorem consistent_of_not_table {v : Value} (other : ∀ r, v ≠ .table r) : h.Consistent v :=
  fun r reach => absurd reach (Heap.not_reaches other r)

/-- Every member has come from an entry, and of no entry is the name missing. -/
theorem mem_keys_of_sources {entries : List (Value × Value)} {members members' : Members}
    {source : String × Json → Value × Value} (there : ∀ m ∈ members, source m ∈ entries)
    (named : ∀ m ∈ members, (source m).1.memberName? = some m.1)
    (complete : ∀ e ∈ entries, ∃ key ∈ members'.keys, e.1.memberName? = some key) {key : String}
    (mem : key ∈ members.keys) : key ∈ members'.keys := by
  obtain ⟨m, inside, rfl⟩ := List.mem_map.1 mem
  obtain ⟨key, known, same⟩ := complete _ (there m inside)
  exact Option.some.inj ((named m inside).symm.trans same) ▸ known

namespace Becomes

/-- What a value can become does not depend on the order of entries. -/
theorem likened {v : Value} {j : Json} (becomes : Becomes h g v j) (same : h.Likened h' v) :
    Becomes h' g v j := by
  induction becomes with
  | nil => exact .nil
  | null => exact .null
  | bool b => exact .bool b
  | int n => exact .int n
  | float x => exact .float x
  | text s => exact .text s
  | function kept => exact .function kept
  | @list r items full sized _ ih =>
    have t := same r (.here r)
    refine .list (t.full.2 full) (sized.trans (t.length full).symm) fun n inside => ?_
    exact t.get _ ▸ ih n inside (same.get _)
  | @record r members source other ascending unreserved complete there named _ ih =>
    have t := same r (.here r)
    have mem_iff : ∀ {e}, e ∈ (h'.table r).entries ↔ e ∈ (h.table r).entries :=
      t.entries.symm.mem_iff
    exact .record source (fun full => other (t.full.1 full)) ascending unreserved
      (fun e mem => complete e (mem_iff.1 mem)) (fun m mem => mem_iff.2 (there m mem)) named
      fun m mem => ih m mem (same.entry (there m mem))

/-- If entries with one name have one value, a value can become one thing only. -/
theorem matches_of_consistent {v : Value} {j j' : Json} (consistent : h.Consistent v)
    (becomes : Becomes h g v j) (becomes' : Becomes h g' v j') : Matches g g' j j' := by
  induction becomes generalizing j' with
  | text s =>
    rw [becomes'.of_text]
    exact .str s
  | function kept =>
    cases becomes' with
    | function kept' => exact .function kept kept'
  | @list r items full sized _ ih =>
    cases becomes' with
    | @list _ items' _ sized' each' =>
      refine .arr (sized.trans sized'.symm) fun n inside inside' => ih n inside ?_ (each' n inside')
      by_cases missing : (h.table r).get (.int (n + 1 : Nat)) = .nil
      · exact missing ▸ consistent_of_not_table nofun
      · exact consistent.entry ((h.table r).mem_of_get missing)
    | record _ other => exact absurd full other
  | @record r members source other ascending _ complete there named _ ih =>
    cases becomes' with
    | list full => exact absurd full other
    | @record _ members' source' _ ascending' _ complete' there' named' each' =>
      have keys : ∀ key, key ∈ members.keys ↔ key ∈ members'.keys := fun key =>
        ⟨mem_keys_of_sources there named complete', mem_keys_of_sources there' named' complete⟩
      refine .obj (keys_eq_of_ascending ascending ascending' keys) fun key x x' found found' => ?_
      have mem := mem_of_lookup found
      have mem' := mem_of_lookup found'
      have value : (source' (key, x')).2 = (source (key, x)).2 :=
        consistent r (.here r) other _ (there' _ mem') _ (there _ mem)
          ((named' _ mem').trans (named _ mem).symm)
      exact ih _ mem (consistent.entry (there _ mem)) (value ▸ each' _ mem')
  | _ =>
    cases becomes'
    constructor

end Becomes

/-! ## Entries that are visited last -/

theorem Heap.inside_of_mem (h : Heap) {r : TableRef} {e : Value × Value}
    (mem : e ∈ (h.table r).entries) : r.index < h.size := by
  by_contra beyond
  rw [h.table_of_outside beyond] at mem
  cases mem

/-- Any entry of a table may be the last one that is visited. -/
theorem Heap.exists_reordered_last (h : Heap) {r : TableRef} {e : Value × Value}
    (mem : e ∈ (h.table r).entries) :
    ∃ h', h.Reordered h' ∧ ∃ rest, (h'.table r).entries = rest ++ [e] := by
  have inside := h.inside_of_mem mem
  obtain ⟨before, after, whole⟩ := List.append_of_mem mem
  have moved : (h.table r).entries.Perm (before ++ after ++ [e]) := by
    rw [whole]
    exact List.perm_middle.trans (List.perm_append_singleton e (before ++ after)).symm
  refine ⟨h.update r fun _ => (h.table r).reorder moved, fun r' => ?_, before ++ after, ?_⟩
  · rw [h.table_update inside]
    split
    · next same =>
      subst same
      exact ⟨⟨moved, rfl⟩, rfl⟩
    · exact .refl _
  · rw [h.table_update inside, if_pos rfl]
    rfl

/-- A table that does not tell what it is can be taken for the other. -/
theorem Heap.exists_rearranged_other (h : Heap) {r : TableRef} (hidden : ¬(h.table r).Evident) :
    ∃ h', h.Rearranged h' ∧ ((h'.table r).Full ↔ ¬(h.table r).Full) := by
  have inside : r.index < h.size := by
    by_contra beyond
    rw [h.table_of_outside beyond] at hidden
    exact hidden fun n _ pos sized => absurd sized (Nat.ne_of_lt pos)
  obtain ⟨n, border, other⟩ := Table.exists_border_of_not_evident hidden
  refine ⟨h.update r fun _ => (h.table r).withBorder border, fun r' => ?_, ?_⟩
  · rw [h.table_update inside]
    split
    · next same =>
      subst same
      exact ⟨.refl _, rfl⟩
    · exact .refl _
  · rw [h.table_update inside, if_pos rfl]
    exact other

/-- The entry that is visited last counts. -/
theorem leaveEntries_last {leave : Location → Value → Leaving Json} (converts : Converts h leave)
    (location : Location) {e : Value × Value} {name : String}
    (named : e.1.memberName? = some name) (rest : List (Value × Value)) (members : Members)
    (g : Registry) :
    Leaves (leaveEntries leave location members (rest ++ [e])) g fun ms g' =>
      ∃ j, ms.get? name = some j ∧ Becomes h g' e.2 j := by
  induction rest generalizing members g with
  | nil =>
    refine .bind (memberName_leaves location e.1 g) fun key g₁ _ known => ?_
    by_cases reserved : key = markerKey
    · simp only [if_pos reserved]
      exact .bind (.refuse (P := fun _ _ => False) _ _) fun _ _ _ never => never.elim
    · simp only [if_neg reserved]
      refine .bind (converts _ e.2 g₁) fun j g₂ _ becomes => .pure fun _ _ => ⟨j, ?_, becomes⟩
      cases known.symm.trans named
      exact (lookup_insertEntry _ _ _ _).trans (if_pos rfl)
  | cons first rest ih =>
    refine .bind (memberName_leaves location first.1 g) fun key g₁ _ _ => ?_
    by_cases reserved : key = markerKey
    · simp only [if_pos reserved]
      exact .bind (.refuse (P := fun _ _ => False) _ _) fun _ _ _ never => never.elim
    · simp only [if_neg reserved]
      refine .bind (converts _ first.2 g₁) fun j g₂ _ _ => ?_
      exact (ih _ g₂).imp fun _ _ last _ _ => last

theorem toJson_last (location : Location) {r : TableRef} {e : Value × Value} {name : String}
    {rest : List (Value × Value)} (other : ¬(h.table r).Full)
    (entries : (h.table r).entries = rest ++ [e]) (named : e.1.memberName? = some name)
    (g : Registry) :
    Leaves (toJson h location (.table r)) g fun j g' =>
      ∃ members x, j = .obj members ∧ Members.get? members name = some x ∧ Becomes h g' e.2 x := by
  unfold toJson nestingLimit
  rw [leaveWithin]
  split
  · next full => exact absurd full other
  · rw [entries]
    refine .bind (leaveEntries_last (leaveWithin_converts h _) location named rest [] g) ?_
    rintro members g' _ ⟨x, found, becomes⟩
    exact .pure fun _ => ⟨members, x, rfl, found, becomes⟩

/-- Two entries of a table that becomes an object have one name, and whatever their values become,
it is not the same. -/
structure Heap.Clash (h : Heap) (r : TableRef) (e e' : Value × Value) : Prop where
  other : ¬(h.table r).Full
  mem : e ∈ (h.table r).entries
  mem' : e' ∈ (h.table r).entries
  named : ∃ name, e.1.memberName? = some name ∧ e'.1.memberName? = some name
  apart : ∀ g g' j j', Becomes h g e.2 j → Becomes h g' e'.2 j' → ¬Matches g g' j j'

namespace Becomes
variable {r : TableRef} {j : Json}

theorem list_of_full (becomes : Becomes h g (.table r) j) (full : (h.table r).Full) :
    ∃ items, j = .arr items := by
  cases becomes with
  | list => exact ⟨_, rfl⟩
  | record _ other => exact absurd full other

theorem record_of_not_full (becomes : Becomes h g (.table r) j) (other : ¬(h.table r).Full) :
    ∃ members, j = .obj members := by
  cases becomes with
  | list full => exact absurd full other
  | record => exact ⟨_, rfl⟩

end Becomes

theorem Matches.not_arr_obj {items : List Json} {members : Members} :
    ¬Matches g g' (.arr items) (.obj members) ∧ ¬Matches g g' (.obj members) (.arr items) := by
  constructor
  · generalize whole : Json.arr items = x
    intro same
    cases same <;> cases whole
  · generalize whole : Json.arr items = x
    intro same
    cases same <;> cases whole

/-- Heaps in which a consistent value is much the same make the same JSON of it. -/
theorem toJson_matches {location : Location} {v : Value} {j j' : Json} {g₁ g₂ : Registry}
    (consistent : h.Consistent v) (same : h.Likened h' v) (ok : toJson h location v g = .ok j g₁)
    (ok' : toJson h' location v g = .ok j' g₂) : Matches g₁ g₂ j j' :=
  (toJson_becomes ok).matches_of_consistent consistent ((toJson_becomes ok').likened same.symm)

/-- In the one order the one of two clashing entries comes last, in the other order the other. -/
theorem Heap.Clash.exists_orders {location : Location} {r : TableRef} {e e' : Value × Value}
    (clash : h.Clash r e e') (accepted : Accepts (toJson h location (.table r)) g) :
    ∃ h₁ h₂ j₁ g₁ j₂ g₂, h.Reordered h₁ ∧ h.Reordered h₂ ∧
      toJson h₁ location (.table r) g = .ok j₁ g₁ ∧ toJson h₂ location (.table r) g = .ok j₂ g₂ ∧
      ¬Matches g₁ g₂ j₁ j₂ := by
  obtain ⟨other, mem, mem', ⟨name, named, named'⟩, apart⟩ := clash
  obtain ⟨h₁, same₁, rest₁, last₁⟩ := h.exists_reordered_last mem
  obtain ⟨h₂, same₂, rest₂, last₂⟩ := h.exists_reordered_last mem'
  obtain ⟨j₁, g₁, ok₁⟩ := (leaveWithin_accepts_likened (same₁.likened _) location g).1 accepted
  obtain ⟨j₂, g₂, ok₂⟩ := (leaveWithin_accepts_likened (same₂.likened _) location g).1 accepted
  refine ⟨h₁, h₂, j₁, g₁, j₂, g₂, same₁, same₂, ok₁, ok₂, ?_⟩
  have other₁ := mt (same₁ r).likened.full.1 other
  have other₂ := mt (same₂ r).likened.full.1 other
  obtain ⟨_, members₁, x₁, rfl, found₁, becomes₁⟩ :=
    (toJson_last location other₁ last₁ named g).of_ok ok₁
  obtain ⟨_, members₂, x₂, rfl, found₂, becomes₂⟩ :=
    (toJson_last location other₂ last₂ named' g).of_ok ok₂
  have unreserved : markerKey ∉ Members.keys members₁ := by
    cases toJson_becomes ok₁ with
    | record _ _ _ unreserved => exact unreserved
  intro same
  exact apart g₁ g₂ x₁ x₂ (becomes₁.likened (same₁.likened e.2).symm)
    (becomes₂.likened (same₂.likened e'.2).symm) (same.of_obj unreserved found₁ found₂)

/-- A table that is taken for a list in the one heap only becomes a list there and an object in
the other. -/
theorem not_matches_of_other {location : Location} {r : TableRef} {j j' : Json}
    {g₁ g₂ : Registry} (other : (h'.table r).Full ↔ ¬(h.table r).Full)
    (ok : toJson h location (.table r) g = .ok j g₁)
    (ok' : toJson h' location (.table r) g = .ok j' g₂) : ¬Matches g₁ g₂ j j' := by
  by_cases full : (h.table r).Full
  · obtain ⟨items, rfl⟩ := (toJson_becomes ok).list_of_full full
    obtain ⟨members, rfl⟩ := (toJson_becomes ok').record_of_not_full fun full' => other.1 full' full
    exact Matches.not_arr_obj.1
  · obtain ⟨members, rfl⟩ := (toJson_becomes ok).record_of_not_full full
    obtain ⟨items, rfl⟩ := (toJson_becomes ok').list_of_full (other.2 full)
    exact Matches.not_arr_obj.2

/-- A value is accepted in any order of its entries or in none. If entries with one name have one
value, the result is the same in any order, but for the numbers of handles; if the values of two
entries clash, there are orders with results that are not. So far the length of every table stays
what it is. If the tables in the value tell what they are, all of this does not depend on their
lengths either; and a table that does not has another border with which it is refused or has
another result. -/
theorem toJson_orders (h : Heap) (location : Location) (v : Value) (g : Registry) :
    (∀ h', h.Reordered h' →
      (Accepts (toJson h location v) g ↔ Accepts (toJson h' location v) g)) ∧
    (h.Consistent v → ∀ h', h.Reordered h' → ∀ j g₁ j' g₂, toJson h location v g = .ok j g₁ →
      toJson h' location v g = .ok j' g₂ → Matches g₁ g₂ j j') ∧
    (∀ r e e', v = .table r → Accepts (toJson h location v) g → h.Clash r e e' →
      ∃ h₁ h₂ j₁ g₁ j₂ g₂, h.Reordered h₁ ∧ h.Reordered h₂ ∧
        toJson h₁ location v g = .ok j₁ g₁ ∧ toJson h₂ location v g = .ok j₂ g₂ ∧
        ¬Matches g₁ g₂ j₁ j₂) ∧
    (h.Evident v → ∀ h', h.Rearranged h' →
      (Accepts (toJson h location v) g ↔ Accepts (toJson h' location v) g) ∧
      (h.Consistent v → ∀ j g₁ j' g₂, toJson h location v g = .ok j g₁ →
        toJson h' location v g = .ok j' g₂ → Matches g₁ g₂ j j')) ∧
    ∀ r j g₁, v = .table r → ¬(h.table r).Evident → toJson h location v g = .ok j g₁ →
      ∃ h', h.Rearranged h' ∧
        ∀ j' g₂, toJson h' location v g = .ok j' g₂ → ¬Matches g₁ g₂ j j' := by
  have accepts : ∀ {h'}, h.Likened h' v →
      (Accepts (toJson h location v) g ↔ Accepts (toJson h' location v) g) :=
    fun same => leaveWithin_accepts_likened same location g
  refine ⟨fun h' same => accepts (same.likened v), fun consistent h' same j g₁ j' g₂ ok ok' => ?_,
    fun r e e' same accepted clash => ?_, fun evident h' same => ⟨accepts (evident.likened same),
    fun consistent j g₁ j' g₂ ok ok' => ?_⟩, fun r j g₁ same hidden ok => ?_⟩
  · exact toJson_matches consistent (same.likened v) ok ok'
  · subst same
    exact clash.exists_orders accepted
  · exact toJson_matches consistent (evident.likened same) ok ok'
  · subst same
    obtain ⟨h', same, other⟩ := h.exists_rearranged_other hidden
    exact ⟨h', same, fun j' g₂ ok' => not_matches_of_other other ok ok'⟩

/-- Two functions under names, visited in the one order and in the other. -/
def hooks : Heap := #[Table.ofFields [("first", .function ⟨0⟩), ("second", .function ⟨1⟩)]]

def hooksBackwards : Heap :=
  #[Table.ofFields [("second", .function ⟨1⟩), ("first", .function ⟨0⟩)]]

theorem hooks_consistent : hooks.Consistent (.table ⟨0⟩) := by
  intro r reach
  cases reach with
  | here =>
    intro _ e mem e' mem' same
    have names : ∀ e ∈ (hooks.table ⟨0⟩).entries,
        e = (.text "first", .function ⟨0⟩) ∨ e = (.text "second", .function ⟨1⟩) :=
      fun _ => List.mem_pair.1
    have apart : (Value.text "first").memberName? ≠ (Value.text "second").memberName? := by
      rw [memberName?_text, memberName?_text]
      decide
    rcases names e mem with rfl | rfl <;> rcases names e' mem' with rfl | rfl
    · rfl
    · exact absurd same apart
    · exact absurd same.symm apart
    · rfl
  | entry mem below =>
    rcases List.mem_pair.1 mem with rfl | rfl
    all_goals exact nomatch below

/-- An entry under an index, and then one under the spelling of that index. -/
def indexFirst : Table :=
  ((∅ : Table).set (.int 4094) (.text "number")).set (.text "4094") (.text "text")

theorem indexFirst_clash : Heap.Clash #[indexFirst] ⟨0⟩ (.int 4094, .text "number")
    (.text "4094", .text "text") where
  other full := absurd full.1 (by decide)
  mem := List.mem_cons_self
  mem' := List.mem_cons_of_mem _ List.mem_cons_self
  named := ⟨"4094", rfl, memberName?_text _⟩
  apart g g' j j' becomes becomes' same := by
    rw [becomes.of_text, becomes'.of_text] at same
    exact absurd (Json.str.inj same.eq_of_str) (by decide)

theorem hooks_evident : hooks.Evident (.table ⟨0⟩) := by
  intro r reach
  cases reach with
  | here =>
    intro n border pos
    rcases border.last with rfl | there
    · exact absurd pos (Nat.lt_irrefl 0)
    · rcases List.mem_pair.1 there with same | same <;> cases same
  | entry mem below =>
    rcases List.mem_pair.1 mem with rfl | rfl
    all_goals exact nomatch below

/-- An item with a gap before it and one behind it, and an entry with a name. -/
def strayed : Heap := #[(Table.ofItems [.nil, .int 2, .nil]).set (.text "x") (.int 1)]

theorem strayed_hidden : ¬(strayed.table ⟨0⟩).Evident := fun evident => by
  have sequence := evident 2 (strayed.table ⟨0⟩).bordered (by decide) rfl
  obtain ⟨i, _, same⟩ := (sequence.mem_keys (.text "x")).1 (by decide)
  cases same

theorem toJson_orders_hooks :
    (∃ j g₁ j' g₂, toJson hooks ⟨"x", []⟩ (.table ⟨0⟩) {} = .ok j g₁ ∧
      toJson hooksBackwards ⟨"x", []⟩ (.table ⟨0⟩) {} = .ok j' g₂ ∧ g₁ ≠ g₂ ∧
      Matches g₁ g₂ j j') ∧
    (∃ h₁ h₂ j₁ g₁ j₂ g₂, Heap.Reordered #[indexFirst] h₁ ∧ Heap.Reordered #[indexFirst] h₂ ∧
      toJson h₁ ⟨"x", []⟩ (.table ⟨0⟩) {} = .ok j₁ g₁ ∧
      toJson h₂ ⟨"x", []⟩ (.table ⟨0⟩) {} = .ok j₂ g₂ ∧ ¬Matches g₁ g₂ j₁ j₂) ∧
    (∀ h', hooks.Rearranged h' → Accepts (toJson h' ⟨"x", []⟩ (.table ⟨0⟩)) {}) ∧
    ∃ h', strayed.Rearranged h' ∧
      toJson strayed ⟨"x", []⟩ (.table ⟨0⟩) {} = .ok (.arr [.null, .int 2]) {} ∧
      ∀ j' g₂, toJson h' ⟨"x", []⟩ (.table ⟨0⟩) {} = .ok j' g₂ →
        ¬Matches {} g₂ (.arr [.null, .int 2]) j' := by
  have backwards : hooks.Reordered hooksBackwards := by
    rintro ⟨_ | n⟩
    · exact ⟨⟨.swap _ _ _, rfl⟩, rfl⟩
    · exact .refl ∅
  have apart : (⟨[⟨0⟩, ⟨1⟩]⟩ : Registry) ≠ ⟨[⟨1⟩, ⟨0⟩]⟩ := nofun
  refine ⟨⟨_, ⟨[⟨0⟩, ⟨1⟩]⟩, _, ⟨[⟨1⟩, ⟨0⟩]⟩, rfl, rfl, apart, ?_⟩, ?_, fun h' same => ?_, ?_⟩
  · exact (toJson_orders hooks ⟨"x", []⟩ (.table ⟨0⟩) {}).2.1 hooks_consistent _ backwards
      _ _ _ _ rfl rfl
  · exact (toJson_orders #[indexFirst] ⟨"x", []⟩ (.table ⟨0⟩) {}).2.2.1 _ _ _ rfl ⟨_, _, rfl⟩
      indexFirst_clash
  · exact ((toJson_orders hooks ⟨"x", []⟩ (.table ⟨0⟩) {}).2.2.2.1 hooks_evident h' same).1.1
      ⟨_, _, rfl⟩
  · obtain ⟨h', same, other⟩ := (toJson_orders strayed ⟨"x", []⟩ (.table ⟨0⟩) {}).2.2.2.2
      _ _ _ rfl strayed_hidden rfl
    exact ⟨h', same, rfl, other⟩

/-- The entries of `indexFirst`, visited the other way round. -/
def indexLast : Table :=
  ((∅ : Table).set (.text "4094") (.text "text")).set (.int 4094) (.text "number")

/-- Two orders of one table with results that are not the same. -/
theorem orders_disagree : Heap.Reordered #[indexFirst] #[indexLast] ∧
    toJson #[indexFirst] ⟨"x", []⟩ (.table ⟨0⟩) {} = .ok (.obj [("4094", .str "text")]) {} ∧
    toJson #[indexLast] ⟨"x", []⟩ (.table ⟨0⟩) {} = .ok (.obj [("4094", .str "number")]) {} ∧
    ¬Matches {} {} (.obj [("4094", .str "text")]) (.obj [("4094", .str "number")]) := by
  refine ⟨?_, rfl, rfl, ?_⟩
  · rintro ⟨_ | n⟩
    · exact ⟨⟨.swap _ _ _, rfl⟩, rfl⟩
    · exact .refl ∅
  · intro same
    have values : Matches {} {} (.str "text") (.str "number") :=
      same.of_obj (by decide) (show Members.get? _ "4094" = _ from rfl) rfl
    exact absurd (Json.str.inj values.eq_of_str) (by decide)

end GuildPlan.Script
