import GuildPlan.Proofs.Inclusion

/-
  The shape of every successful resolution: hearings of all declared channels, and an
  artifact that is made of those which were admitted.
-/
namespace GuildPlan

variable {σ : Type}

/-- The channel as predicates are shown it: with what its parents pass down, in canonical
order. Global channels have no parents. -/
def Channel.shownUnder (parents : List Override) (c : Channel) : Channel :=
  (c.inheriting parents).ordered

theorem Category.prepared_channels (c : Category) :
    c.prepared.channels = c.channels.map (Channel.shownUnder c.overrides) := by
  unfold prepared synced ordered
  rw [List.map_map]
  rfl

/-- The hearings of channels in turn: about each of them its own predicate is asked, and
then that of its category. -/
structure Heard (parents : List Override) (category : Option Handle) (channels : List Channel)
    (rows : List Hearing) : Prop where
  channels : rows.map Hearing.channel = channels
  questions : ∀ r ∈ rows, r.verdicts.map Verdict.question =
    (r.channel.inclusion.toList ++ category.toList).map (⟨·, r.channel.shownUnder parents⟩)

theorem Heard.mem_of_admitted {parents : List Override} {category : Option Handle}
    {cs : List Channel} {rows : List Hearing} (h : Heard parents category cs rows) {r : Hearing}
    (admitted : r ∈ rows.filter Hearing.admitted) : r.channel ∈ cs := by
  rw [← h.channels]
  exact List.mem_map_of_mem (List.mem_filter.1 admitted).1

/-- A category with the hearings of its channels. -/
structure Docket where
  category : Category
  hearings : List Hearing

namespace Docket

def Complete (k : Docket) : Prop :=
  Heard k.category.overrides k.category.inclusion k.category.channels k.hearings

def verdicts (k : Docket) : List Verdict := k.hearings.flatMap Hearing.verdicts

end Docket

/-- The channels that were admitted, as they were shown. -/
def keptChannels (parents : List Override) (rows : List Hearing) : List Channel :=
  (rows.filter Hearing.admitted).map fun r => r.channel.shownUnder parents

theorem keptChannels_settled (parents : List Override) (rows : List Hearing) :
    (keptChannels parents rows).map Channel.settled =
      (rows.filter Hearing.admitted).map fun r => (r.channel.shownUnder parents).settled :=
  List.map_map

/-- The category with the channels that were admitted. -/
def Docket.kept (k : Docket) : Category :=
  { k.category.prepared with channels := keptChannels k.category.overrides k.hearings }

theorem filterGlobal_transcribed {h : Host σ} {cs left : List Channel} {n : Nat}
    {s t : σ × List Verdict}
    (ok : filterGlobal h.transcribed (cs.map Channel.ordered) s = (⟨.ok n, left⟩, t)) :
    ∃ rows, Heard [] none cs rows ∧ left = keptChannels [] rows ∧
      t.2 = s.2 ++ rows.flatMap Hearing.verdicts := by
  unfold filterGlobal at ok
  split at ok
  · cases ok
  · next kept t' passed =>
    cases ok
    obtain ⟨rows, same, questions, keeps, written⟩ :=
      keep_transcribed (asks_admits h Channel.inclusion) excluded Channel.ordered passed
    refine ⟨rows, ⟨same, fun r mem => ?_⟩, keeps, written⟩
    rw [questions r mem, Option.toList_none, List.append_nil]
    rfl

theorem filterCategory_transcribed {h : Host σ} {c left : Category} {n : Nat}
    {s t : σ × List Verdict}
    (ok : filterCategory h.transcribed c.prepared s = (⟨.ok n, left⟩, t)) :
    ∃ k : Docket, k.category = c ∧ k.Complete ∧ left = k.kept ∧ t.2 = s.2 ++ k.verdicts := by
  unfold filterCategory at ok
  rw [Category.prepared_channels] at ok
  split at ok
  · cases ok
  · next kept t' passed =>
    cases ok
    obtain ⟨rows, same, questions, keeps, written⟩ :=
      keep_transcribed (asks_admitsBoth h Channel.inclusion fun _ => c.prepared.inclusion)
        (excludedFrom c.prepared.name) (Channel.shownUnder c.overrides) passed
    exact ⟨⟨c, rows⟩, rfl, ⟨same, questions⟩,
      congrArg (fun channels => { c.prepared with channels }) keeps, written⟩

theorem filterCategories_transcribed {h : Host σ} {cs left : List Category} {n : Nat}
    {s t : σ × List Verdict}
    (ok : filterCategories h.transcribed (cs.map Category.prepared) s = (.ok (left, n), t)) :
    ∃ dockets : List Docket, dockets.map Docket.category = cs ∧ (∀ k ∈ dockets, k.Complete) ∧
      left = dockets.map Docket.kept ∧ t.2 = s.2 ++ dockets.flatMap Docket.verdicts := by
  induction cs generalizing left n s with
  | nil =>
    cases ok
    exact ⟨[], rfl, List.forall_mem_nil _, rfl, (List.append_nil _).symm⟩
  | cons c cs ih =>
    rw [List.map_cons, filterCategories] at ok
    split at ok
    · cases ok
    · next removed first s' passed =>
      split at ok
      · cases ok
      · next rest more t' others =>
        cases ok
        obtain ⟨k, rfl, complete, rfl, written⟩ := filterCategory_transcribed passed
        obtain ⟨dockets, rfl, completes, rfl, written'⟩ := ih others
        refine ⟨k :: dockets, rfl, List.forall_mem_cons.2 ⟨complete, completes⟩, rfl, ?_⟩
        rw [written', written, List.append_assoc, List.flatMap_cons]

/-- A resolution with a result went through both passes. -/
theorem resolve_eq_ok {h : Host σ} {d : Declaration} {s t : σ} {g : Guild}
    (ok : resolve h d s = (.ok g, t)) : ∃ channels removed s' categories more t',
      filterGlobal h (d.setup.channels.map Channel.ordered) s = (⟨.ok removed, channels⟩, s') ∧
      filterCategories h (d.setup.categories.map Category.prepared) s' =
        (.ok (categories, more), t') ∧
      g = Guild.sequence d.guildId channels d.setup.roles categories ∧
      t = h.note (compiled g (removed + more)) t' := by
  unfold resolve at ok
  split at ok
  · cases ok
  · next removed channels s' passed =>
    split at ok
    · cases ok
    · next categories more t' others =>
      cases ok
      exact ⟨channels, removed, s', categories, more, t', passed, others, rfl, rfl⟩

/-- Hearings of everything that was declared, and what they leave of it. -/
structure Proceedings (d : Declaration) (rows : List Hearing) (dockets : List Docket) (g : Guild) :
    Prop where
  globals : Heard [] none d.setup.channels rows
  categories : dockets.map Docket.category = d.setup.categories
  complete : ∀ k ∈ dockets, k.Complete
  artifact : g = Guild.sequence d.guildId (keptChannels [] rows) d.setup.roles
    (dockets.map Docket.kept)

theorem Proceedings.category_mem {d : Declaration} {rows : List Hearing}
    {dockets : List Docket} {g : Guild} (h : Proceedings d rows dockets g) {k : Docket}
    (mem : k ∈ dockets) : k.category ∈ d.setup.categories := by
  rw [← h.categories]
  exact List.mem_map_of_mem mem

/-- The questions that a host is asked when it resolves a declaration, with its answers. -/
def Host.transcript (h : Host σ) (d : Declaration) (s : σ) : List Verdict :=
  (resolve h.transcribed d (s, [])).2.2

theorem resolve_proceedings {h : Host σ} {d : Declaration} {s : σ} {g : Guild}
    (ok : (resolve h d s).1 = .ok g) : ∃ rows dockets, Proceedings d rows dockets g ∧
      h.transcript d s = rows.flatMap Hearing.verdicts ++ dockets.flatMap Docket.verdicts := by
  have same : (resolve h.transcribed d (s, [])).1 = .ok g := by
    rw [← ok, h.transcribed_simulates.resolve d (s, [])]
    rfl
  obtain ⟨t, watched⟩ : ∃ t, resolve h.transcribed d (s, []) = (.ok g, t) :=
    ⟨_, Prod.ext same rfl⟩
  obtain ⟨channels, removed, s', categories, more, t', first, second, artifact, noted⟩ :=
    resolve_eq_ok watched
  obtain ⟨rows, heard, rfl, written⟩ := filterGlobal_transcribed first
  obtain ⟨dockets, same, complete, rfl, written'⟩ := filterCategories_transcribed second
  refine ⟨rows, dockets, ⟨heard, same, complete, artifact⟩, ?_⟩
  calc h.transcript d s = t'.2 := by rw [Host.transcript, watched, noted]; rfl
    _ = s'.2 ++ dockets.flatMap Docket.verdicts := written'
    _ = rows.flatMap Hearing.verdicts ++ dockets.flatMap Docket.verdicts := by
      rw [written, List.nil_append]

end GuildPlan
