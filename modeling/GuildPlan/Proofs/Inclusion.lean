import GuildPlan.Resolution

/-
  Hosts as observers see them. A host may be replaced by one that keeps more, or less, as
  long as its answers stay the same; so a run can be watched by a host that writes every
  answer down. What a pass keeps is then read off those answers.
-/
namespace GuildPlan

variable {σ τ : Type}

/-! ## Hosts with the same answers -/

/-- A host whose states can be viewed as those of another one, and which answers like it. -/
structure Host.Simulates (h' : Host τ) (h : Host σ) (view : τ → σ) : Prop where
  test : ∀ handle c t, h.test handle c (view t) = Prod.map id view (h'.test handle c t)
  note : ∀ line t, h.note line (view t) = view (h'.note line t)

namespace Host.Simulates
variable {h' : Host τ} {h : Host σ} {view : τ → σ}

theorem admits (sim : h'.Simulates h view) (p : Option Handle) (c : Channel) (t : τ) :
    h.admits p c (view t) = Prod.map id view (h'.admits p c t) := by
  cases p with
  | none => rfl
  | some handle => exact sim.test handle c t

theorem admitsBoth (sim : h'.Simulates h view) (p q : Option Handle) (c : Channel) (t : τ) :
    h.admitsBoth p q c (view t) = Prod.map id view (h'.admitsBoth p q c t) := by
  unfold Host.admitsBoth
  rw [sim.admits p c t]
  rcases h'.admits p c t with ⟨own | own, t⟩
  · rfl
  · simp only [Prod.map_apply, id_eq]
    rw [sim.admits q c t]
    rcases h'.admits q c t with ⟨other | other, t⟩ <;> rfl

theorem keep (sim : h'.Simulates h view) {passes : Channel → σ → Except Failure Bool × σ}
    {passes' : Channel → τ → Except Failure Bool × τ}
    (same : ∀ c t, passes c (view t) = Prod.map id view (passes' c t))
    (line : Channel → LogLine) (cs : List Channel) (t : τ) :
    h.keep passes line cs (view t) = Prod.map id view (h'.keep passes' line cs t) := by
  induction cs generalizing t with
  | nil => rfl
  | cons c cs ih =>
    unfold Host.keep
    rw [same]
    rcases passes' c t with ⟨_ | (_ | _), t⟩
    · rfl
    · simp only [Prod.map_apply, id_eq]
      rw [sim.note, ih]
    · simp only [Prod.map_apply, id_eq]
      rw [ih]
      rcases h'.keep passes' line cs t with ⟨_ | _, t⟩ <;> rfl

theorem filterGlobal (sim : h'.Simulates h view) (cs : List Channel) (t : τ) :
    filterGlobal h cs (view t) = Prod.map id view (filterGlobal h' cs t) := by
  unfold GuildPlan.filterGlobal
  rw [sim.keep fun c t => sim.admits c.inclusion c t]
  rcases h'.keep (fun c => h'.admits c.inclusion c) excluded cs t with ⟨_ | _, t⟩ <;> rfl

theorem filterCategory (sim : h'.Simulates h view) (c : Category) (t : τ) :
    filterCategory h c (view t) = Prod.map id view (filterCategory h' c t) := by
  unfold GuildPlan.filterCategory
  rw [sim.keep fun ch t => sim.admitsBoth ch.inclusion c.inclusion ch t]
  rcases h'.keep (fun ch => h'.admitsBoth ch.inclusion c.inclusion ch) (excludedFrom c.name)
    c.channels t with ⟨_ | _, t⟩ <;> rfl

theorem filterCategories (sim : h'.Simulates h view) (cs : List Category) (t : τ) :
    filterCategories h cs (view t) = Prod.map id view (filterCategories h' cs t) := by
  induction cs generalizing t with
  | nil => rfl
  | cons c cs ih =>
    unfold GuildPlan.filterCategories
    rw [sim.filterCategory]
    rcases GuildPlan.filterCategory h' c t with ⟨⟨_ | _, left⟩, t⟩
    · rfl
    · simp only [Prod.map_apply, id_eq]
      rw [ih]
      rcases GuildPlan.filterCategories h' cs t with ⟨_ | _, t⟩ <;> rfl

/-- Hosts with the same answers resolve a declaration to the same result. -/
theorem resolve (sim : h'.Simulates h view) (d : Declaration) (t : τ) :
    resolve h d (view t) = Prod.map id view (resolve h' d t) := by
  unfold GuildPlan.resolve
  rw [sim.filterGlobal]
  rcases GuildPlan.filterGlobal h' (d.setup.channels.map Channel.ordered) t
    with ⟨⟨_ | _, left⟩, t⟩
  · rfl
  · simp only [Prod.map_apply, id_eq]
    rw [sim.filterCategories]
    rcases GuildPlan.filterCategories h' (d.setup.categories.map Category.prepared) t
      with ⟨_ | _, t⟩
    · rfl
    · simp only [Prod.map_apply, id_eq]
      rw [sim.note]

end Host.Simulates

/-! ## Answers written down -/

/-- A question with the answer that it got. -/
structure Verdict where
  question : Question
  answer : Except Failure Bool

def Verdict.positive (v : Verdict) : Bool :=
  match v.answer with
  | .ok b => b
  | .error _ => false

/-- The same host, with every question and its answer written down. -/
def Host.transcribed (h : Host σ) : Host (σ × List Verdict) where
  test handle channel s :=
    let (answer, t) := h.test handle channel s.1
    (answer, t, s.2 ++ [⟨⟨handle, channel⟩, answer⟩])
  note line s := (h.note line s.1, s.2)

theorem Host.transcribed_simulates (h : Host σ) : h.transcribed.Simulates h Prod.fst :=
  ⟨fun _ _ _ => rfl, fun _ _ => rfl⟩

/-- A channel that a pass went over, with the verdicts on it. -/
structure Hearing where
  channel : Channel
  verdicts : List Verdict

/-- Whether every predicate that was asked admitted the channel. -/
def Hearing.admitted (r : Hearing) : Bool := r.verdicts.all Verdict.positive

/-- A test that asks some predicates about a channel, each in turn, and admits the channel
if all of them do. -/
def Asks (passes : Channel → σ × List Verdict → Except Failure Bool × σ × List Verdict)
    (predicates : Channel → List Handle) : Prop :=
  ∀ c s b t, passes c s = (.ok b, t) → ∃ verdicts : List Verdict,
    verdicts.map Verdict.question = (predicates c).map (⟨·, c⟩) ∧
    b = verdicts.all Verdict.positive ∧ t.2 = s.2 ++ verdicts

theorem asks_admits (h : Host σ) (p : Channel → Option Handle) :
    Asks (fun c => h.transcribed.admits (p c) c) fun c => (p c).toList := by
  intro c s b t ok
  cases found : p c with
  | none =>
    simp only [found, Host.admits] at ok
    cases ok
    exact ⟨[], by simp [found], rfl, (List.append_nil _).symm⟩
  | some handle =>
    simp only [found, Host.admits, Host.transcribed] at ok
    obtain ⟨answered, rfl⟩ := Prod.mk.inj ok
    refine ⟨[⟨⟨handle, c⟩, .ok b⟩], by simp [found], ?_, by simp only [answered]⟩
    simp [Verdict.positive]

theorem asks_admitsBoth (h : Host σ) (p q : Channel → Option Handle) :
    Asks (fun c => h.transcribed.admitsBoth (p c) (q c) c)
      fun c => (p c).toList ++ (q c).toList := by
  intro c s b t ok
  simp only [Host.admitsBoth] at ok
  split at ok
  · cases ok
  · next own s' first =>
    split at ok
    · cases ok
    · next other t' second =>
      cases ok
      obtain ⟨vs, asked, rfl, written⟩ := asks_admits h p c s own s' first
      obtain ⟨ws, asked', rfl, written'⟩ := asks_admits h q c s' other t second
      refine ⟨vs ++ ws, ?_, ?_, ?_⟩
      · rw [List.map_append, asked, asked', List.map_append]
      · rw [List.all_append]
      · rw [written', written, List.append_assoc]

/-- What a pass over channels, shown in some form, comes to: a hearing for each of them in
turn, and the admitted ones are kept. -/
theorem keep_transcribed {h : Host σ}
    {passes : Channel → σ × List Verdict → Except Failure Bool × σ × List Verdict}
    {predicates : Channel → List Handle} (asks : Asks passes predicates)
    (line : Channel → LogLine) (shown : Channel → Channel) {cs kept : List Channel}
    {s t : σ × List Verdict}
    (ok : h.transcribed.keep passes line (cs.map shown) s = (.ok kept, t)) :
    ∃ rows : List Hearing, rows.map Hearing.channel = cs ∧
      (∀ r ∈ rows, r.verdicts.map Verdict.question =
        (predicates (shown r.channel)).map (⟨·, shown r.channel⟩)) ∧
      kept = (rows.filter Hearing.admitted).map (fun r => shown r.channel) ∧
      t.2 = s.2 ++ rows.flatMap Hearing.verdicts := by
  induction cs generalizing kept s with
  | nil =>
    cases ok
    exact ⟨[], rfl, List.forall_mem_nil _, rfl, (List.append_nil _).symm⟩
  | cons c cs ih =>
    rw [List.map_cons, Host.keep] at ok
    split at ok
    · cases ok
    · next s' passed =>
      obtain ⟨vs, asked, all, written⟩ := asks _ _ _ _ passed
      split at ok
      · cases ok
      · next rest t' more =>
        cases ok
        obtain ⟨rows, rfl, questions, rfl, written'⟩ := ih more
        refine ⟨⟨c, vs⟩ :: rows, rfl, List.forall_mem_cons.2 ⟨asked, questions⟩, ?_, ?_⟩
        · have admitted : Hearing.admitted ⟨c, vs⟩ = true := all.symm
          rw [List.filter_cons_of_pos admitted, List.map_cons]
        · rw [written', written, List.append_assoc, List.flatMap_cons]
    · next s' failed =>
      obtain ⟨vs, asked, all, written⟩ := asks _ _ _ _ failed
      obtain ⟨rows, rfl, questions, rfl, written'⟩ := ih ok
      refine ⟨⟨c, vs⟩ :: rows, rfl, List.forall_mem_cons.2 ⟨asked, questions⟩, ?_, ?_⟩
      · have refused : ¬Hearing.admitted ⟨c, vs⟩ := fun admitted =>
          Bool.noConfusion (all.trans admitted)
        rw [List.filter_cons_of_neg refused]
      · have same : (h.transcribed.note (line (shown c)) s').2 = s'.2 := rfl
        rw [written', same, written, List.append_assoc, List.flatMap_cons]

end GuildPlan
