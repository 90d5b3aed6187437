import GuildPlan.Category
import GuildPlan.Log

/-
  Inclusion predicates decide which channels stay.

  The host that knows the predicates has a state, which a call may change and which keeps
  the log. A pass asks about the channels in their order and stops at the first call that
  fails. It takes the channels out before it starts, and a pass that is cut short does not
  put them back.
-/
namespace GuildPlan

/-- Whoever runs predicates: the answer to one of them about a channel, and the log. -/
structure Host (σ : Type) where
  test : Handle → Channel → σ → Except Failure Bool × σ
  note : LogLine → σ → σ

/-- One question that was put to a host. -/
structure Question where
  handle : Handle
  channel : Channel

namespace Host
variable {σ : Type}

/-- The same host, with every question written down. -/
def recorded (h : Host σ) : Host (σ × List Question) where
  test handle channel s :=
    let (answer, t) := h.test handle channel s.1
    (answer, t, s.2 ++ [⟨handle, channel⟩])
  note line s := (h.note line s.1, s.2)

/-- Whether a predicate admits a channel; no predicate admits every channel. -/
def admits (h : Host σ) (predicate : Option Handle) (c : Channel) (s : σ) :
    Except Failure Bool × σ :=
  match predicate with
  | none => (.ok true, s)
  | some handle => h.test handle c s

/-- Whether two predicates both admit a channel. The second is asked whatever the first one
answers, and not at all if the first one fails. -/
def admitsBoth (h : Host σ) (first second : Option Handle) (c : Channel) (s : σ) :
    Except Failure Bool × σ :=
  match h.admits first c s with
  | (.error e, s) => (.error e, s)
  | (.ok own, s) =>
    match h.admits second c s with
    | (.error e, s) => (.error e, s)
    | (.ok other, s) => (.ok (own && other), s)

/-- The channels that pass, each other one noted in the log. -/
def keep (h : Host σ) (passes : Channel → σ → Except Failure Bool × σ)
    (line : Channel → LogLine) : List Channel → σ → Except Failure (List Channel) × σ
  | [], s => (.ok [], s)
  | c :: cs, s =>
    match passes c s with
    | (.error e, s) => (.error e, s)
    | (.ok true, s) =>
      match keep h passes line cs s with
      | (.error e, s) => (.error e, s)
      | (.ok kept, s) => (.ok (c :: kept), s)
    | (.ok false, s) => keep h passes line cs (h.note (line c) s)

end Host

/-- What a pass does to the holder of the channels: how many it took away, or why it
stopped, and the holder afterwards. -/
structure Pass (α : Type) where
  removed : Except Failure Nat
  left : α

def excludedFrom (category : String) (c : Channel) : LogLine :=
  .info ("Excluding channel " ++ c.label ++ " (" ++ c.id.text ++ ") from category " ++ category)

def excluded (c : Channel) : LogLine :=
  .info ("Excluding channel " ++ c.label ++ " (" ++ c.id.text ++ ")")

/-- Keeps the global channels that their own predicates admit. -/
def filterGlobal {σ : Type} (h : Host σ) (channels : List Channel) (s : σ) :
    Pass (List Channel) × σ :=
  match h.keep (fun c => h.admits c.inclusion c) excluded channels s with
  | (.error e, s) => (⟨.error e, []⟩, s)
  | (.ok kept, s) => (⟨.ok (channels.length - kept.length), kept⟩, s)

/-- Keeps the channels of a category that their own and the category's predicate admit. -/
def filterCategory {σ : Type} (h : Host σ) (category : Category) (s : σ) : Pass Category × σ :=
  match h.keep (fun c => h.admitsBoth c.inclusion category.inclusion c)
      (excludedFrom category.name) category.channels s with
  | (.error e, s) => (⟨.error e, { category with channels := [] }⟩, s)
  | (.ok kept, s) =>
    (⟨.ok (category.channels.length - kept.length), { category with channels := kept }⟩, s)

end GuildPlan
