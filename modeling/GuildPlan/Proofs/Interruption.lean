import GuildPlan.Proofs.Sample

/-
  Passes that are cut short. A pass fails where it comes to a channel with a predicate that
  fails, after a part of the channels that it got through. At that point the channels are
  out of their place, those that it kept so far as well as those that it never came to, and
  there they stay: the place is left empty.
-/
namespace GuildPlan

variable {σ : Type}

namespace Host
variable {h : Host σ}

/-- There is a predicate, and the question about the channel fails. -/
def Fails (h : Host σ) (predicate : Option Handle) (c : Channel) (s : σ) (e : Failure)
    (t : σ) : Prop :=
  ∃ handle, predicate = some handle ∧ h.test handle c s = (.error e, t)

theorem admits_eq_error {predicate : Option Handle} {c : Channel} {s t : σ} {e : Failure} :
    h.admits predicate c s = (.error e, t) ↔ h.Fails predicate c s e t := by
  cases predicate with
  | none => simp [admits, Fails]
  | some handle => simp [admits, Fails]

/-- The second predicate can only fail after the first one gave an answer, whichever. -/
theorem admitsBoth_eq_error {first second : Option Handle} {c : Channel} {s t : σ}
    {e : Failure} : h.admitsBoth first second c s = (.error e, t) ↔
      h.Fails first c s e t ∨
        ∃ own u, h.admits first c s = (.ok own, u) ∧ h.Fails second c u e t := by
  simp only [← admits_eq_error]
  unfold admitsBoth
  rcases h.admits first c s with ⟨own | own, u⟩
  · simp
  · rcases found : h.admits second c u with ⟨other | other, v⟩ <;> simp [found]

section Pass
variable {passes : Channel → σ → Except Failure Bool × σ} {line : Channel → LogLine}

/-- A pass goes through its channels from left to right. -/
theorem keep_append (before after : List Channel) (s : σ) :
    h.keep passes line (before ++ after) s =
      match h.keep passes line before s with
      | (.error e, t) => (.error e, t)
      | (.ok kept, t) =>
        match h.keep passes line after t with
        | (.error e, u) => (.error e, u)
        | (.ok more, u) => (.ok (kept ++ more), u) := by
  induction before generalizing s with
  | nil =>
    simp only [List.nil_append, keep]
    rcases h.keep passes line after s with ⟨_ | _, t⟩ <;> rfl
  | cons c before ih =>
    simp only [List.cons_append, keep]
    rcases passes c s with ⟨_ | (_ | _), t⟩
    · rfl
    · exact ih _
    · simp only [ih]
      rcases h.keep passes line before t with ⟨_ | kept, u⟩
      · rfl
      · rcases found : h.keep passes line after u with ⟨_ | more, v⟩ <;> simp only [found]
        rfl

/-- A pass that fails got through the channels before the one that it fails at. -/
theorem keep_eq_error {cs : List Channel} {s t : σ} {e : Failure} :
    h.keep passes line cs s = (.error e, t) ↔
      ∃ before c after kept u, cs = before ++ c :: after ∧
        h.keep passes line before s = (.ok kept, u) ∧ passes c u = (.error e, t) := by
  constructor
  · intro failed
    induction cs generalizing s with
    | nil => cases failed
    | cons c cs ih =>
      rcases here : passes c s with ⟨_ | (_ | _), s'⟩ <;> simp only [keep, here] at failed
      · cases failed
        exact ⟨[], c, cs, [], s, rfl, rfl, here⟩
      · obtain ⟨before, d, after, kept, u, rfl, through, stops⟩ := ih failed
        exact ⟨c :: before, d, after, kept, u, rfl, by simp only [keep, here, through], stops⟩
      · split at failed
        · next rest =>
          cases failed
          obtain ⟨before, d, after, kept, u, rfl, through, stops⟩ := ih rest
          exact ⟨c :: before, d, after, c :: kept, u, rfl, by simp only [keep, here, through],
            stops⟩
        · cases failed
  · rintro ⟨before, c, after, kept, u, rfl, through, stops⟩
    rw [keep_append, through]
    simp only [keep, stops]

end Pass
end Host

/-! ## What is left -/

/-- The pass over global channels comes through, and these are the ones that it keeps. -/
def Clears (h : Host σ) (channels kept : List Channel) (s t : σ) : Prop :=
  ∃ removed, filterGlobal h channels s = (⟨.ok removed, kept⟩, t)

theorem clears_iff {h : Host σ} {channels kept : List Channel} {s t : σ} :
    Clears h channels kept s t ↔
      h.keep (fun c => h.admits c.inclusion c) excluded channels s = (.ok kept, t) := by
  unfold Clears filterGlobal
  rcases h.keep (fun c => h.admits c.inclusion c) excluded channels s with ⟨_ | _, u⟩ <;> simp

theorem filterGlobal_eq_error {h : Host σ} {channels left : List Channel} {s t : σ}
    {e : Failure} : filterGlobal h channels s = (⟨.error e, left⟩, t) ↔
      left = [] ∧ h.keep (fun c => h.admits c.inclusion c) excluded channels s = (.error e, t) := by
  unfold filterGlobal
  rcases h.keep (fun c => h.admits c.inclusion c) excluded channels s with ⟨_ | _, u⟩
  · simp only [Prod.mk.injEq, Pass.mk.injEq, Except.error.injEq, @eq_comm _ left]
    tauto
  · simp

/-- The category with other channels in it. -/
def Category.holding (c : Category) (channels : List Channel) : Category := { c with channels }

/-- The pass over a category's channels comes through, and these are the ones that it keeps. -/
def Category.Clears (c : Category) (h : Host σ) (kept : List Channel) (s t : σ) : Prop :=
  ∃ removed, filterCategory h c s = (⟨.ok removed, c.holding kept⟩, t)

theorem Category.clears_iff {c : Category} {h : Host σ} {kept : List Channel} {s t : σ} :
    c.Clears h kept s t ↔ h.keep (fun ch => h.admitsBoth ch.inclusion c.inclusion ch)
      (excludedFrom c.name) c.channels s = (.ok kept, t) := by
  unfold Category.Clears filterCategory Category.holding
  rcases h.keep (fun ch => h.admitsBoth ch.inclusion c.inclusion ch) (excludedFrom c.name)
    c.channels s with ⟨_ | _, u⟩ <;> simp

theorem filterCategory_eq_error {h : Host σ} {c left : Category} {s t : σ} {e : Failure} :
    filterCategory h c s = (⟨.error e, left⟩, t) ↔
      left = c.holding [] ∧ h.keep (fun ch => h.admitsBoth ch.inclusion c.inclusion ch)
        (excludedFrom c.name) c.channels s = (.error e, t) := by
  unfold filterCategory Category.holding
  rcases h.keep (fun ch => h.admitsBoth ch.inclusion c.inclusion ch) (excludedFrom c.name)
    c.channels s with ⟨_ | _, u⟩
  · simp only [Prod.mk.injEq, Pass.mk.injEq, Except.error.injEq, @eq_comm _ left]
    tauto
  · simp

/-- A pass fails exactly where, after a part of the channels that it comes through, a
predicate fails about the next one: the channel's own, or, whatever that one answers, its
category's. Then it leaves nothing in the place of the channels, and so never what was
there; what else the category holds is left as it was. -/
theorem passes_failed_iff (h : Host σ) (s t : σ) (e : Failure) :
    (∀ category left, filterCategory h category s = (⟨.error e, left⟩, t) ↔
      left = category.holding [] ∧ left ≠ category ∧
      ∃ before c after kept u, category.channels = before ++ c :: after ∧
        (category.holding before).Clears h kept s u ∧
        (h.Fails c.inclusion c u e t ∨
          ∃ own v, h.admits c.inclusion c u = (.ok own, v) ∧
            h.Fails category.inclusion c v e t)) ∧
    (∀ channels left, filterGlobal h channels s = (⟨.error e, left⟩, t) ↔
      left = [] ∧ left ≠ channels ∧
      ∃ before c after kept u, channels = before ++ c :: after ∧
        Clears h before kept s u ∧ h.Fails c.inclusion c u e t) := by
  constructor
  · intro category left
    simp only [filterCategory_eq_error, Host.keep_eq_error, Category.clears_iff,
      Host.admitsBoth_eq_error, Category.holding]
    refine and_congr_right fun emptied => (and_iff_right_of_imp ?_).symm
    rintro ⟨before, c, after, kept, u, cut, -⟩ same
    rw [← same, emptied] at cut
    exact absurd cut.symm (by simp)
  · intro channels left
    simp only [filterGlobal_eq_error, Host.keep_eq_error, clears_iff, Host.admits_eq_error]
    refine and_congr_right fun emptied => (and_iff_right_of_imp ?_).symm
    rintro ⟨before, c, after, kept, u, cut, -⟩ same
    rw [← same, emptied] at cut
    exact absurd cut.symm (by simp)

/-- A host whose first predicate fails, while all the others admit every channel. -/
def Sample.faulty : Host Unit where
  test handle _ s := (if handle = ⟨0⟩ then .error (.script "boom") else .ok true, s)
  note _ s := s

open Sample in
/-- The attic has been let through when the lounge's predicate fails, and both are gone. -/
theorem channels_lost :
    filterCategory faulty (upstairs [attic, lounge] []) () =
      (⟨.error (.script "boom"), upstairs [] []⟩, ()) ∧
    upstairs [] [] ≠ upstairs [attic, lounge] [] ∧
    filterGlobal faulty [attic, lounge] () = (⟨.error (.script "boom"), []⟩, ()) := by
  refine ⟨rfl, fun same => ?_, rfl⟩
  have emptied : [] = [attic, lounge] := congrArg Category.channels same
  cases emptied

end GuildPlan
