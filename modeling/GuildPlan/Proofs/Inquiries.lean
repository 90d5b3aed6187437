import GuildPlan.Proofs.Questions

/-
  The inquiries of a resolution: the questions that it puts, each with the state in which the
  host is when it is put. A resolution fails if and only if a reply does, for the reason that
  the reply gives; and what every reply keeps holds of the host at every inquiry.
-/
namespace GuildPlan

variable {σ : Type}

/-- A question as it is put, with the state of the host at that time. -/
structure Inquiry (σ : Type) where
  question : Question
  state : σ

namespace Host

/-- What a host says to an inquiry, and how that leaves it. -/
def reply (h : Host σ) (i : Inquiry σ) : Except Failure Bool × σ :=
  h.test i.question.handle i.question.channel i.state

/-- A host that writes down its inquiries. -/
def minuted (h : Host σ) : Host (σ × List (Inquiry σ)) where
  test handle c s :=
    let (answer, t) := h.test handle c s.1
    (answer, t, s.2 ++ [⟨⟨handle, c⟩, s.1⟩])
  note line s := (h.note line s.1, s.2)

theorem minuted_simulates (h : Host σ) : h.minuted.Simulates h Prod.fst :=
  ⟨fun _ _ _ => rfl, fun _ _ => rfl⟩

/-- The inquiries of a resolution, in turn. -/
def inquiries (h : Host σ) (d : Declaration) (s : σ) : List (Inquiry σ) :=
  (resolve h.minuted d (s, [])).2.2

end Host

variable {h : Host σ} {d : Declaration} {s : σ}

/-- What is kept by whatever is done to the inquiries so far holds of all of them. -/
theorem inquiries_end {P : List (Inquiry σ) → σ → Prop} {E : Failure → List (Inquiry σ) → Prop}
    (note : ∀ line is t, P is t → P is (h.note line t))
    (test : ∀ is (i : Inquiry σ), P is i.state →
      match h.reply i with
      | (.ok _, t) => P (is ++ [i]) t
      | (.error e, _) => E e (is ++ [i]))
    (start : P [] s) :
    match (resolve h d s).1 with
    | .ok _ => ∃ t, P (h.inquiries d s) t
    | .error e => E e (h.inquiries d s) := by
  have keeps : h.minuted.Keeps (fun _ s => P s.2 s.1) (fun e s => E e s.2) := by
    refine ⟨fun q rest s here => ?_, fun line rest s here => note line s.2 s.1 here⟩
    have replied := test s.2 ⟨q, s.1⟩ here
    show Leads _ _ rest ((h.reply ⟨q, s.1⟩).1, (h.reply ⟨q, s.1⟩).2, s.2 ++ [⟨q, s.1⟩])
    generalize h.reply ⟨q, s.1⟩ = answer at replied ⊢
    obtain ⟨e | b, t⟩ := answer <;> exact replied
  have ends := keeps.resolve (d := d) (s := (s, [])) start
  rw [show resolve h d s = _ from h.minuted_simulates.resolve d (s, [])]
  unfold Host.inquiries
  generalize resolve h.minuted d (s, []) = result at ends ⊢
  obtain ⟨e | g, t⟩ := result
  · exact ends
  · exact ⟨t.1, ends⟩

/-- A resolution fails for the reason that a reply gives, if one gives any. -/
theorem resolve_error_iff {e : Failure} :
    (resolve h d s).1 = .error e ↔ ∃ i ∈ h.inquiries d s, (h.reply i).1 = .error e := by
  -- Replies fail no more than once, as nothing is asked after that.
  have ends : match (resolve h d s).1 with
      | .ok _ => ∃ _ : σ, ∀ i ∈ h.inquiries d s, ∃ b, (h.reply i).1 = .ok b
      | .error e => (∃ i ∈ h.inquiries d s, (h.reply i).1 = .error e) ∧
        ∀ i ∈ h.inquiries d s, ∀ e', (h.reply i).1 = .error e' → e' = e := by
    refine inquiries_end (P := fun is _ => ∀ i ∈ is, ∃ b, (h.reply i).1 = .ok b)
      (E := fun e is => (∃ i ∈ is, (h.reply i).1 = .error e) ∧
        ∀ i ∈ is, ∀ e', (h.reply i).1 = .error e' → e' = e)
      (fun _ _ _ here => here) (fun is i here => ?_) (List.forall_mem_nil _)
    cases replied : h.reply i with
    | mk answer t =>
      cases answer with
      | ok b =>
        refine List.forall_mem_append.2 ⟨here, List.forall_mem_singleton.2 ⟨b, ?_⟩⟩
        rw [replied]
      | error e =>
        refine ⟨⟨i, by simp, by rw [replied]⟩, ?_⟩
        refine List.forall_mem_append.2 ⟨fun i mem e' failed => ?_, ?_⟩
        · obtain ⟨b, ok⟩ := here i mem
          cases ok.symm.trans failed
        · refine List.forall_mem_singleton.2 fun e' failed => ?_
          rw [replied] at failed
          cases failed
          rfl
  cases result : (resolve h d s).1 with
  | ok g =>
    rw [result] at ends
    obtain ⟨_, answered⟩ := ends
    refine ⟨nofun, fun ⟨i, mem, failed⟩ => ?_⟩
    obtain ⟨b, ok⟩ := answered i mem
    cases ok.symm.trans failed
  | error e' =>
    rw [result] at ends
    obtain ⟨first, only⟩ := ends
    refine ⟨fun same => Except.error.inj same ▸ first, fun ⟨i, mem, failed⟩ => ?_⟩
    rw [only i mem e failed]

/-- What holds of the host in the beginning, and is kept by every reply and every log line,
holds at every inquiry. -/
theorem inquiries_hold {I : σ → Prop} (start : I s)
    (note : ∀ line t, I t → I (h.note line t))
    (kept : ∀ i ∈ h.inquiries d s, I i.state → I (h.reply i).2) :
    ∀ i ∈ h.inquiries d s, I i.state := by
  -- It holds so far if the replies so far have kept it.
  have ends : match (resolve h d s).1 with
      | .ok _ => ∃ t, (∀ i ∈ h.inquiries d s, I i.state → I (h.reply i).2) →
        I t ∧ ∀ i ∈ h.inquiries d s, I i.state
      | .error _ => (∀ i ∈ h.inquiries d s, I i.state → I (h.reply i).2) →
        ∀ i ∈ h.inquiries d s, I i.state := by
    refine inquiries_end (P := fun is t => (∀ i ∈ is, I i.state → I (h.reply i).2) →
        I t ∧ ∀ i ∈ is, I i.state)
      (E := fun _ is => (∀ i ∈ is, I i.state → I (h.reply i).2) → ∀ i ∈ is, I i.state)
      (fun line is t here kept => ⟨note line t (here kept).1, (here kept).2⟩)
      (fun is i here => ?_) (fun _ => ⟨start, List.forall_mem_nil _⟩)
    cases replied : h.reply i with
    | mk answer t =>
      have holds : (∀ j ∈ is ++ [i], I j.state → I (h.reply j).2) →
          I t ∧ ∀ j ∈ is ++ [i], I j.state := by
        intro kept
        obtain ⟨before, last⟩ := List.forall_mem_append.1 kept
        obtain ⟨now, so_far⟩ := here before
        have then_ := last i (List.mem_singleton_self i) now
        rw [replied] at then_
        exact ⟨then_, List.forall_mem_append.2 ⟨so_far, List.forall_mem_singleton.2 now⟩⟩
      cases answer with
      | ok b => exact holds
      | error e => exact fun kept => (holds kept).2
  split at ends
  · obtain ⟨t, holds⟩ := ends
    exact (holds kept).2
  · exact ends kept

end GuildPlan
