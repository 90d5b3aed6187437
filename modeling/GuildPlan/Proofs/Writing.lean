import GuildPlan.Mount.Tree
import GuildPlan.Proofs.KeyMap

/-
  Writing a file into a tree. A file can be written where there is one already and where a
  name is free in a directory. Walks through the tree come to where they came before, but
  for those that found the name free: they arrive at the file now. So the content is read
  back from the path that it was written to, and nothing else in the tree is different.
-/
namespace GuildPlan.Tree

variable {α : Type} {t t' : Tree α} {way : Way}

/-! ## Nodes -/

theorem node?_put (proper : way ≠ []) (other : Way) (n : Node α) :
    (t.put way n).node? other = if other = way then some n else t.node? other := by
  have found : (t.put way n).nodes.lookup other =
      if other = way then some n else t.nodes.lookup other := by
    unfold put
    rw [List.lookup_append, lookup_filter (decide <| · ≠ way), lookup_cons_eq]
    by_cases same : other = way <;> simp [same]
  unfold node?
  rcases eq_or_ne other way with rfl | apart
  · simp only [found, proper, if_true, if_false]
  · simp only [found, apart, if_false]

/-- A place for a file: there is one, or nothing. -/
def Spot (t : Tree α) (way : Way) : Prop :=
  t.node? way = none ∨ ∃ body, t.node? way = some (.file body)

namespace Spot

theorem ne_nil (spot : t.Spot way) : way ≠ [] := by
  rintro rfl
  have root : t.node? [] = some .directory := if_pos rfl
  rcases spot with free | ⟨body, there⟩
  · rw [root] at free
    cases free
  · rw [root] at there
    cases there

theorem node?_put (spot : t.Spot way) (other : Way) (n : Node α) :
    (t.put way n).node? other = if other = way then some n else t.node? other :=
  Tree.node?_put spot.ne_nil other n

/-- No walk goes on from there. -/
theorem walk_cons (spot : t.Spot way) (piece : String) (rest : List String) :
    t.walk way (piece :: rest) = .lost := by
  rcases spot with free | ⟨body, there⟩
  · rw [walk, free]
  · rw [walk, there]

end Spot

/-! ## Walks -/

/-- Where a walk comes to when there is a file at the place that it may have found free. -/
def Walk.settled (way : Way) : Walk → Walk
  | .free w => if w = way then .arrived w else .free w
  | w => w

theorem walk_put (spot : t.Spot way) (body : α) (here : Way) (pieces : List String) :
    (t.put way (.file body)).walk here pieces = (t.walk here pieces).settled way := by
  have filled : (t.put way (.file body)).Spot way :=
    .inr ⟨body, (spot.node?_put way _).trans (if_pos rfl)⟩
  induction pieces generalizing here with
  | nil => rfl
  | cons piece rest ih =>
    by_cases there : here = way
    · rw [there, filled.walk_cons, spot.walk_cons]
      rfl
    rw [walk, walk, spot.node?_put, if_neg there]
    cases t.node? here with
    | none => rfl
    | some n =>
      cases n with
      | file _ => rfl
      | link _ => rfl
      | directory =>
        by_cases idle : Path.idle piece = true
        · simp only [idle, if_true]
          exact ih here
        by_cases up : piece = ".."
        · simp only [up, if_true]
          exact ih _
        by_cases long : nameLimit < piece.utf8ByteSize
        · simp only [idle, up, long, if_true]
          rfl
        simp only [idle, up, long, if_false, Bool.false_eq_true, spot.node?_put]
        by_cases next : here ++ [piece] = way
        · rw [next, if_pos rfl]
          rcases spot with free | ⟨old, there⟩
          · rw [free]
            cases rest with
            | nil => simp [walk, Walk.settled]
            | cons name rest => exact filled.walk_cons name rest
          · rw [there]
            exact ih way
        · rw [if_neg next]
          cases t.node? (here ++ [piece]) with
          | none => by_cases last : rest = [] <;> simp [last, Walk.settled, next]
          | some n =>
            cases n with
            | link target => rfl
            | directory => exact ih _
            | file _ => exact ih _

theorem follow_put (spot : t.Spot way) (body : α) (links : Nat) (here : Way)
    (pieces : List String) : (t.put way (.file body)).follow links here pieces =
      (t.follow links here pieces).settled way := by
  induction links generalizing here pieces with
  | zero =>
    unfold follow
    rw [walk_put spot]
    cases t.walk here pieces with
    | free w => by_cases same : w = way <;> simp [Walk.settled, same]
    | _ => rfl
  | succ links ih =>
    unfold follow
    rw [walk_put spot]
    cases t.walk here pieces with
    | free w => by_cases same : w = way <;> simp [Walk.settled, same]
    | diverted here pieces => exact ih here pieces
    | _ => rfl

theorem reach_put (spot : t.Spot way) (body : α) (path : String) :
    (t.put way (.file body)).reach path = (t.reach path).settled way := by
  unfold reach
  split
  · rfl
  · exact follow_put spot body _ _ _

/-- A walk that ends at a free name ends where there is nothing. -/
theorem node?_of_walk_free {here : Way} {pieces : List String}
    (ends : t.walk here pieces = .free way) : t.node? way = none := by
  induction pieces generalizing here with
  | nil => cases ends
  | cons piece rest ih =>
    rw [walk] at ends
    split at ends
    · split at ends
      · exact ih ends
      split at ends
      · exact ih ends
      split at ends
      · cases ends
      split at ends
      · next free =>
        split at ends
        · cases ends
          exact free
        · cases ends
      · split at ends <;> cases ends
      · exact ih ends
    · cases ends

theorem node?_of_follow_free {links : Nat} {here : Way} {pieces : List String}
    (ends : t.follow links here pieces = .free way) : t.node? way = none := by
  induction links generalizing here pieces with
  | zero =>
    unfold follow at ends
    split at ends
    · cases ends
    · exact node?_of_walk_free ends
  | succ links ih =>
    unfold follow at ends
    split at ends
    · exact ih ends
    · exact node?_of_walk_free ends

theorem node?_of_reach_free {path : String} (ends : t.reach path = .free way) :
    t.node? way = none := by
  unfold reach at ends
  split at ends
  · cases ends
  · exact node?_of_follow_free ends

/-! ## Writing -/

/-- One file of a tree, which may be a new one, gets the content that is read from a path
afterwards, and all else is as it was. -/
structure Receives (t t' : Tree α) (path : String) (body : α) : Prop where
  read : t'.read? path = some body
  rest : ∃ way, t.Spot way ∧ t'.locate? path = some way ∧
    ∀ other, other ≠ way → t'.node? other = t.node? other

/-- A file can be written to a path: it leads to a free name or to a file. -/
inductive Takes (t : Tree α) (path : String) : Prop
  | fresh {way : Way} : t.reach path = .free way → Takes t path
  | again {way : Way} {old : α} : t.reach path = .arrived way →
    t.node? way = some (.file old) → Takes t path

theorem receives_put {path : String} (spot : t.Spot way) (body : α)
    (leads : (t.reach path).settled way = .arrived way) :
    t.Receives (t.put way (.file body)) path body := by
  have located : (t.put way (.file body)).locate? path = some way := by
    unfold locate?
    rw [reach_put spot, leads]
  have there : (t.put way (.file body)).node? way = some (.file body) :=
    (spot.node?_put way _).trans (if_pos rfl)
  refine ⟨?_, way, spot, located, fun other apart =>
    (spot.node?_put other _).trans (if_neg apart)⟩
  unfold read?
  rw [located, Option.bind_some, there]

theorem write?_of_takes {path : String} (takes : t.Takes path) (body : α) :
    ∃ t', t.write? path body = some t' ∧ t.Receives t' path body := by
  cases takes with
  | @fresh way leads =>
    refine ⟨t.put way (.file body), ?_, ?_⟩
    · unfold write?
      rw [leads]
    · exact receives_put (.inl (node?_of_reach_free leads)) body (by rw [leads]; exact if_pos rfl)
  | @again way old leads there =>
    refine ⟨t.put way (.file body), ?_, ?_⟩
    · unfold write?
      simp only [leads, there]
    · exact receives_put (.inr ⟨old, there⟩) body (by rw [leads]; rfl)

theorem write?_of_not_takes {path : String} (refuses : ¬t.Takes path) (body : α) :
    t.write? path body = none := by
  unfold write?
  split
  · next leads => exact absurd (.fresh leads) refuses
  · next leads =>
    split
    · next there => exact absurd (.again leads there) refuses
    · rfl
  · rfl

end GuildPlan.Tree
