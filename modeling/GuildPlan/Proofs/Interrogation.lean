import GuildPlan.Proofs.Ordering
import GuildPlan.Proofs.Questions
import GuildPlan.Proofs.Sample

/-
  The course of a resolution. Its questions are put in one order, whatever the host answers,
  and nothing is asked after a question that fails. A pass keeps the channels about which
  every answer was positive, and what the passes say they took away is what the artifact
  lacks of the declaration.
-/
namespace GuildPlan

variable {σ α : Type}

/-! ## Questions in turn -/

/-- The question was answered, one way or the other. -/
def Verdict.Answered (v : Verdict) : Prop := ∃ b, v.answer = .ok b

/-- Where an action ends that puts questions in turn: behind the last of them, when all have
been answered, or right behind the first that fails, and then it fails in the same way. -/
def InTurn (questions : List Question) (verdicts : List Verdict) : Except Failure α → Prop
  | .ok _ => verdicts.map Verdict.question = questions ∧ ∀ v ∈ verdicts, v.Answered
  | .error e => ∃ answered q rest, questions = answered.map Verdict.question ++ q :: rest ∧
      (∀ v ∈ answered, v.Answered) ∧ verdicts = answered ++ [⟨q, .error e⟩]

/-- The questions put so far, all of them answered, and those to come are the ones that there
are to put. -/
def SoFar (all rest : List Question) (s : σ × List Verdict) : Prop :=
  s.2.map Verdict.question ++ rest = all ∧ ∀ v ∈ s.2, v.Answered

theorem transcribed_keeps (h : Host σ) (all : List Question) :
    h.transcribed.Keeps (SoFar all) fun e s => InTurn all s.2 (.error e : Except Failure Unit) where
  note line rest s here := here
  test := by
    rintro ⟨handle, c⟩ rest ⟨s, verdicts⟩ ⟨put, answered⟩
    show Leads _ _ rest ((h.test handle c s).1, (h.test handle c s).2,
      verdicts ++ [⟨⟨handle, c⟩, (h.test handle c s).1⟩])
    generalize h.test handle c s = reply
    obtain ⟨e | b, t⟩ := reply
    · exact ⟨verdicts, ⟨handle, c⟩, rest, put.symm, answered, rfl⟩
    · refine ⟨?_, List.forall_mem_append.2 ⟨answered, List.forall_mem_singleton.2 ⟨b, rfl⟩⟩⟩
      simpa using put

theorem SoFar.start (all : List Question) (s : σ) : SoFar all (all ++ []) (s, []) :=
  ⟨List.append_nil _, List.forall_mem_nil _⟩

theorem InTurn.of_leads {all : List Question} {result : Except Failure α × σ × List Verdict}
    (ends : Leads (SoFar all) (fun e s => InTurn all s.2 (.error e : Except Failure Unit)) []
      result) : InTurn all result.2.2 result.1 := by
  obtain ⟨e | a, s⟩ := result
  · exact ends
  · obtain ⟨put, answered⟩ := ends
    exact ⟨(List.append_nil _).symm.trans put, answered⟩

theorem resolve_inTurn (h : Host σ) (d : Declaration) (s : σ) :
    InTurn d.questions (h.transcript d s) (resolve h d s).1 := by
  rw [show resolve h d s = _ from h.transcribed_simulates.resolve d (s, [])]
  have start := SoFar.start d.questions s
  rw [List.append_nil] at start
  exact .of_leads ((transcribed_keeps h d.questions).resolve start)

/-! ## Passes -/

/-- The questions that a host is asked in a pass over global channels, with its answers. -/
def Host.globalTranscript (h : Host σ) (channels : List Channel) (s : σ) : List Verdict :=
  (filterGlobal h.transcribed channels (s, [])).2.2

/-- The questions that a host is asked in a pass over a category, with its answers. -/
def Host.categoryTranscript (h : Host σ) (c : Category) (s : σ) : List Verdict :=
  (filterCategory h.transcribed c (s, [])).2.2

/-- The channels are heard in turn, and those that every answer was positive about are kept;
the others are counted. -/
def Sifted (category : Option Handle) (channels : List Channel) (verdicts : List Verdict)
    (kept : List Channel) (removed : Nat) : Prop :=
  removed + kept.length = channels.length ∧
  ∃ rows : List Hearing, rows.map Hearing.channel = channels ∧
    (∀ r ∈ rows, r.verdicts.map Verdict.question = r.channel.asked category) ∧
    verdicts = rows.flatMap Hearing.verdicts ∧
    kept = (rows.filter Hearing.admitted).map Hearing.channel

/-- The course of a pass over channels. -/
structure Sifting (category : Option Handle) (channels : List Channel) (verdicts : List Verdict)
    (removed : Except Failure Nat) (kept : List Channel) : Prop where
  inTurn : InTurn (channels.flatMap (Channel.asked category)) verdicts removed
  sifted : ∀ n, removed = .ok n → Sifted category channels verdicts kept n

theorem sifted_of_keep {h : Host σ} {category : Option Handle}
    {passes : Channel → σ × List Verdict → Except Failure Bool × σ × List Verdict}
    (asks : Asks passes fun c => c.inclusion.toList ++ category.toList) {line : Channel → LogLine}
    {channels kept : List Channel} {s : σ} {t : σ × List Verdict}
    (ok : h.transcribed.keep passes line channels (s, []) = (.ok kept, t)) :
    Sifted category channels t.2 kept (channels.length - kept.length) := by
  rw [← List.map_id channels] at ok
  obtain ⟨rows, rfl, questions, rfl, written⟩ := keep_transcribed asks line id ok
  refine ⟨?_, rows, rfl, questions, written, rfl⟩
  have fewer := List.length_filter_le Hearing.admitted rows
  simp only [List.length_map, id_eq]
  omega

theorem filterGlobal_sifting (h : Host σ) (channels : List Channel) (s : σ) :
    Sifting none channels (h.globalTranscript channels s) (filterGlobal h channels s).1.removed
      (filterGlobal h channels s).1.left := by
  have put := (transcribed_keeps h _).globalPass (.start (channels.flatMap _) s)
  have asks : Asks (fun c => h.transcribed.admits c.inclusion c)
      fun c => c.inclusion.toList ++ (none : Option Handle).toList := by
    simpa using asks_admits h Channel.inclusion
  have same := h.transcribed_simulates.filterGlobal channels (s, [])
  rw [show filterGlobal h channels s = _ from same]
  refine ⟨.of_leads put, ?_⟩
  intro n passed
  unfold Host.globalTranscript
  unfold filterGlobal at passed ⊢
  split at passed
  · cases passed
  · next kept t kept_eq =>
    cases passed
    exact sifted_of_keep asks kept_eq

theorem filterCategory_sifting (h : Host σ) (c : Category) (s : σ) :
    Sifting c.inclusion c.channels (h.categoryTranscript c s) (filterCategory h c s).1.removed
      (filterCategory h c s).1.left.channels := by
  have put := (transcribed_keeps h _).categoryPass (.start (c.channels.flatMap _) s)
  have asks := asks_admitsBoth h Channel.inclusion fun _ => c.inclusion
  have same := h.transcribed_simulates.filterCategory c (s, [])
  rw [show filterCategory h c s = _ from same]
  refine ⟨.of_leads put, ?_⟩
  intro n passed
  unfold Host.categoryTranscript
  unfold filterCategory at passed ⊢
  split at passed
  · cases passed
  · next kept t kept_eq =>
    cases passed
    exact sifted_of_keep asks kept_eq

/-! ## Counts -/

/-- The number of channels in a setup, in categories and outside of them. -/
def Setup.channelCount (s : Setup) : Nat :=
  s.channels.length + (s.categories.flatMap Category.channels).length

theorem length_flatMap_channels {f : Category → Category}
    (same : ∀ c, (f c).channels.length = c.channels.length) (cs : List Category) :
    ((cs.map f).flatMap Category.channels).length = (cs.flatMap Category.channels).length := by
  induction cs with
  | nil => rfl
  | cons c cs ih => simp [same, ih]

theorem filterGlobal_count {h : Host σ} {channels left : List Channel} {n : Nat} {s t : σ}
    (ok : filterGlobal h channels s = (⟨.ok n, left⟩, t)) : n + left.length = channels.length := by
  have sifting := filterGlobal_sifting h channels s
  rw [ok] at sifting
  exact (sifting.sifted n rfl).1

theorem filterCategory_count {h : Host σ} {c left : Category} {n : Nat} {s t : σ}
    (ok : filterCategory h c s = (⟨.ok n, left⟩, t)) :
    n + left.channels.length = c.channels.length := by
  have sifting := filterCategory_sifting h c s
  rw [ok] at sifting
  exact (sifting.sifted n rfl).1

theorem filterCategories_count {h : Host σ} {cs left : List Category} {n : Nat} {s t : σ}
    (ok : filterCategories h cs s = (.ok (left, n), t)) :
    n + (left.flatMap Category.channels).length = (cs.flatMap Category.channels).length := by
  induction cs generalizing left n s with
  | nil =>
    cases ok
    rfl
  | cons c cs ih =>
    unfold filterCategories at ok
    split at ok
    · cases ok
    · next removed first s' passed =>
      split at ok
      · cases ok
      · next rest more t' others =>
        cases ok
        have here := filterCategory_count passed
        have further := ih others
        simp only [List.flatMap_cons, List.length_append]
        omega

/-- Putting an artifact in order neither adds nor takes a channel. -/
theorem sequence_count (id : String) (channels : List Channel) (roles : List Role)
    (categories : List Category) :
    (Guild.sequence id channels roles categories).declaration.setup.channelCount =
      ({ channels, roles, categories } : Setup).channelCount := by
  have globals := (sortById_perm Channel.id (channels.map Channel.settled)).length_eq
  have each (c : Category) : c.settled.channels.length = c.channels.length :=
    (sortById_perm Channel.id _).length_eq.trans (List.length_map _)
  have sorted := (sortById_perm Category.id (categories.map Category.settled)).flatMap_right
    Category.channels
  have nested := sorted.length_eq.trans (length_flatMap_channels each categories)
  rw [List.length_map] at globals
  exact congrArg₂ (· + ·) globals nested

/-! ## Resolutions -/

/-- The passes of a resolution that has a result, and what it counts: the log line at its end
has the number of the channels that were declared and are not in the artifact. -/
def Tallied (h : Host σ) (d : Declaration) (s : σ) (g : Guild) (t : σ) : Prop :=
  ∃ channels removed u categories more v,
    filterGlobal h (d.setup.channels.map Channel.ordered) s = (⟨.ok removed, channels⟩, u) ∧
    filterCategories h (d.setup.categories.map Category.prepared) u =
      (.ok (categories, more), v) ∧
    g = Guild.sequence d.guildId channels d.setup.roles categories ∧
    t = h.note (compiled g (removed + more)) v ∧
    removed + more + g.declaration.setup.channelCount = d.setup.channelCount

theorem tallied_of_resolve {h : Host σ} {d : Declaration} {s t : σ} {g : Guild}
    (ok : resolve h d s = (.ok g, t)) : Tallied h d s g t := by
  obtain ⟨channels, removed, u, categories, more, v, first, second, rfl, rfl⟩ := resolve_eq_ok ok
  refine ⟨channels, removed, u, categories, more, v, first, second, rfl, rfl, ?_⟩
  have globals := filterGlobal_count first
  have nested := filterCategories_count second
  have prepared (c : Category) : c.prepared.channels.length = c.channels.length := by
    rw [Category.prepared_channels, List.length_map]
  rw [List.length_map] at globals
  rw [length_flatMap_channels prepared] at nested
  rw [sequence_count]
  unfold Setup.channelCount
  dsimp only
  omega

/-- The questions of a resolution are put in turn, each about the channel with its overrides
passed down and in order, and nothing is asked after a failure. Every pass keeps just the
channels that all answers were positive about, and what the passes take away adds up to what
the artifact lacks. -/
theorem resolution_course (h : Host σ) (d : Declaration) (s : σ) :
    InTurn d.questions (h.transcript d s) (resolve h d s).1 ∧
    (∀ channels, Sifting none channels (h.globalTranscript channels s)
      (filterGlobal h channels s).1.removed (filterGlobal h channels s).1.left) ∧
    (∀ c, Sifting c.inclusion c.channels (h.categoryTranscript c s)
      (filterCategory h c s).1.removed (filterCategory h c s).1.left.channels) ∧
    ∀ g t, resolve h d s = (.ok g, t) → Tallied h d s g t := by
  refine ⟨resolve_inTurn h d s, ?_, ?_, ?_⟩
  · intro channels
    exact filterGlobal_sifting h channels s
  · intro c
    exact filterCategory_sifting h c s
  · intro g t ok
    exact tallied_of_resolve ok

open Sample in
/-- The lounge is refused by its own predicate, and its category's is asked all the same. -/
example : (alternating.transcript house 1).map
    (fun v => (v.question.handle.index, v.question.channel.name, v.positive)) =
      [(0, "lounge", false), (1, "lounge", true), (1, "attic", false)] := by
  rfl

end GuildPlan
