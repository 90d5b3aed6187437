import GuildPlan.Proofs.Resolution

/-
  The questions of a resolution. Which predicates are asked about which channels, and in
  which order, follows from the declaration; a resolution that fails has put only the first
  of these questions. What holds of the questions to come, and is kept by every answer,
  therefore holds through a whole resolution.
-/
namespace GuildPlan

variable {σ α : Type}

/-! ## What is asked -/

/-- The questions about a channel: its own predicate is asked, and then its category's. -/
def Channel.questions (parents : List Override) (category : Option Handle) (c : Channel) :
    List Question :=
  (c.inclusion.toList ++ category.toList).map (⟨·, c.shownUnder parents⟩)

def Category.questions (c : Category) : List Question :=
  c.channels.flatMap (Channel.questions c.overrides c.inclusion)

/-- The questions that a pass puts about a channel as it finds it. -/
def Channel.asked (category : Option Handle) (c : Channel) : List Question :=
  (c.inclusion.toList ++ category.toList).map (⟨·, c⟩)

/-- All questions about a declaration, if every one of them is answered. -/
def Declaration.questions (d : Declaration) : List Question :=
  d.setup.channels.flatMap (Channel.questions [] none) ++
    d.setup.categories.flatMap Category.questions

/-! ## What is kept -/

/-- Where an action leaves a host: something holds of it and the questions to come, or of the
failure and the host. -/
def Leads (P : List Question → σ → Prop) (E : Failure → σ → Prop) (rest : List Question) :
    Except Failure α × σ → Prop
  | (.ok _, t) => P rest t
  | (.error e, t) => E e t

/-- A property of a host and of the questions to come that every answer and every log line
keeps. -/
structure Host.Keeps (h : Host σ) (P : List Question → σ → Prop) (E : Failure → σ → Prop) :
    Prop where
  test : ∀ q rest s, P (q :: rest) s → Leads P E rest (h.test q.handle q.channel s)
  note : ∀ line rest s, P rest s → P rest (h.note line s)

namespace Host.Keeps
variable {h : Host σ} {P : List Question → σ → Prop} {E : Failure → σ → Prop}

theorem admits (keeps : h.Keeps P E) {p : Option Handle} {c : Channel} {rest : List Question}
    {s : σ} (here : P (p.toList.map (⟨·, c⟩) ++ rest) s) : Leads P E rest (h.admits p c s) := by
  cases p with
  | none => exact here
  | some handle => exact keeps.test ⟨handle, c⟩ rest s here

theorem admitsBoth (keeps : h.Keeps P E) {p q : Option Handle} {c : Channel}
    {rest : List Question} {s : σ} (here : P ((p.toList ++ q.toList).map (⟨·, c⟩) ++ rest) s) :
    Leads P E rest (h.admitsBoth p q c s) := by
  rw [List.map_append, List.append_assoc] at here
  have first := keeps.admits here
  unfold Host.admitsBoth
  generalize h.admits p c s = answer at first ⊢
  obtain ⟨e | own, s'⟩ := answer
  · exact first
  · have second := keeps.admits first
    dsimp only
    generalize h.admits q c s' = answer at second ⊢
    obtain ⟨e | other, t⟩ := answer <;> exact second

/-- A pass over channels puts the questions about each of them in turn. -/
theorem keep (keeps : h.Keeps P E) {passes : Channel → σ → Except Failure Bool × σ}
    {ask : Channel → List Question}
    (asks : ∀ c rest s, P (ask c ++ rest) s → Leads P E rest (passes c s))
    (line : Channel → LogLine) {cs : List Channel} {rest : List Question} {s : σ}
    (here : P (cs.flatMap ask ++ rest) s) : Leads P E rest (h.keep passes line cs s) := by
  induction cs generalizing s with
  | nil => exact here
  | cons c cs ih =>
    rw [List.flatMap_cons, List.append_assoc] at here
    have first := asks c _ s here
    unfold Host.keep
    generalize passes c s = answer at first ⊢
    obtain ⟨e | _ | _, s'⟩ := answer
    · exact first
    · exact ih (keeps.note (line c) _ s' first)
    · have others := ih first
      dsimp only
      generalize h.keep passes line cs s' = kept at others ⊢
      obtain ⟨e | kept, t⟩ := kept <;> exact others

/-- A pass over global channels puts the questions about them in turn. -/
theorem globalPass (keeps : h.Keeps P E) {cs : List Channel} {rest : List Question} {s : σ}
    (here : P (cs.flatMap (Channel.asked none) ++ rest) s) :
    Leads P E rest ((filterGlobal h cs s).map Pass.removed id) := by
  have asks : ∀ c rest s, P (Channel.asked none c ++ rest) s →
      Leads P E rest (h.admits c.inclusion c s) := by
    intro c rest s here
    unfold Channel.asked at here
    rw [Option.toList_none, List.append_nil] at here
    exact keeps.admits here
  have passed := keeps.keep asks excluded here
  unfold filterGlobal
  generalize h.keep _ excluded cs s = kept at passed ⊢
  obtain ⟨e | kept, t⟩ := kept <;> exact passed

/-- A pass over the channels of a category puts the questions about them in turn. -/
theorem categoryPass (keeps : h.Keeps P E) {c : Category} {rest : List Question} {s : σ}
    (here : P (c.channels.flatMap (Channel.asked c.inclusion) ++ rest) s) :
    Leads P E rest ((filterCategory h c s).map Pass.removed id) := by
  have asks : ∀ ch rest s, P (Channel.asked c.inclusion ch ++ rest) s →
      Leads P E rest (h.admitsBoth ch.inclusion c.inclusion ch s) :=
    fun ch rest s => keeps.admitsBoth
  have passed := keeps.keep asks (excludedFrom c.name) here
  unfold filterCategory
  generalize h.keep _ _ c.channels s = kept at passed ⊢
  obtain ⟨e | kept, t⟩ := kept <;> exact passed

theorem filterGlobal (keeps : h.Keeps P E) {cs : List Channel} {rest : List Question} {s : σ}
    (here : P (cs.flatMap (Channel.questions [] none) ++ rest) s) :
    Leads P E rest ((filterGlobal h (cs.map Channel.ordered) s).map Pass.removed id) := by
  have same : cs.flatMap (Channel.questions [] none) =
      (cs.map Channel.ordered).flatMap (Channel.asked none) := by
    rw [List.flatMap_map]
    rfl
  exact keeps.globalPass (same ▸ here)

theorem filterCategory (keeps : h.Keeps P E) {c : Category} {rest : List Question} {s : σ}
    (here : P (c.questions ++ rest) s) :
    Leads P E rest ((filterCategory h c.prepared s).map Pass.removed id) := by
  have same : c.questions = c.prepared.channels.flatMap (Channel.asked c.inclusion) := by
    rw [Category.prepared_channels, List.flatMap_map]
    rfl
  exact keeps.categoryPass (c := c.prepared) (same ▸ here)

theorem filterCategories (keeps : h.Keeps P E) {cs : List Category} {rest : List Question}
    {s : σ} (here : P (cs.flatMap Category.questions ++ rest) s) :
    Leads P E rest (filterCategories h (cs.map Category.prepared) s) := by
  induction cs generalizing s with
  | nil => exact here
  | cons c cs ih =>
    rw [List.flatMap_cons, List.append_assoc] at here
    have first := keeps.filterCategory here
    rw [List.map_cons]
    unfold GuildPlan.filterCategories
    generalize GuildPlan.filterCategory h c.prepared s = pass at first ⊢
    obtain ⟨⟨e | removed, left⟩, s'⟩ := pass
    · exact first
    · have others := ih (s := s') first
      dsimp only
      generalize GuildPlan.filterCategories h (cs.map Category.prepared) s' = kept at others ⊢
      obtain ⟨e | kept, t⟩ := kept <;> exact others

/-- What every answer keeps, a resolution keeps until all questions are put. -/
theorem resolve (keeps : h.Keeps P E) {d : Declaration} {s : σ} (here : P d.questions s) :
    Leads P E [] (resolve h d s) := by
  unfold Declaration.questions at here
  have first := keeps.filterGlobal here
  unfold GuildPlan.resolve
  generalize GuildPlan.filterGlobal h (d.setup.channels.map Channel.ordered) s = pass at first ⊢
  obtain ⟨⟨e | removed, channels⟩, s'⟩ := pass
  · exact first
  · rw [← List.append_nil (d.setup.categories.flatMap Category.questions)] at first
    have second := keeps.filterCategories (s := s') first
    dsimp only
    generalize GuildPlan.filterCategories h _ s' = kept at second ⊢
    obtain ⟨e | ⟨categories, more⟩, t⟩ := kept
    · exact second
    · exact keeps.note _ [] t second

end Host.Keeps
end GuildPlan
