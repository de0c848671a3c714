import Readings.Proofs.Capped
import Readings.Proofs.Postorder

/-! Tables of capped lists that are filled along a walk. Every list of the table is a beginning of the
full list of its vertex, and the table notes a cut exactly if one of the full lists is longer than the
limit. Where full lists never shrink on the way up, what is noted below is missing at the top. -/

namespace Readings

variable {α β : Type} {targets : α → Option (List α)} {order : List α}

/-- The lists kept for some vertices, and the cut noted, against their full lists. -/
structure Follows (full : α → List β) (limit : Nat) (order : List α) (kept : α → List β)
    (cut : Bool) : Prop where
  kept : ∀ vertex ∈ order, kept vertex = (full vertex).take limit
  cut_iff : cut = true ↔ ∃ vertex ∈ order, limit < (full vertex).length

variable {full kept : α → List β} {limit : Nat} {cut : Bool}

theorem follows_nil (full : α → List β) (limit : Nat) (kept : α → List β) :
    Follows full limit [] kept false :=
  ⟨fun _ member => absurd member List.not_mem_nil, by simp⟩

theorem Follows.enter [DecidableEq α] (follows : Follows full limit order kept cut) {vertex : α}
    {below : List α} (inside : below ⊆ order) {found : Capped β}
    (holds : found.Holds limit (∃ target ∈ below, limit < (full target).length) (full vertex)) :
    Follows full limit (order ++ [vertex])
      (fun other => if vertex = other then found.values else kept other) (cut || found.cut) := by
  constructor
  · intro other member
    split
    next same => exact same ▸ holds.values
    next differ =>
      apply follows.kept other
      simpa [Ne.symm differ] using member
  · simp only [Bool.or_eq_true, follows.cut_iff, List.mem_append, List.mem_singleton, or_and_right,
      exists_or, exists_eq_left]
    constructor
    · exact Or.imp id holds.longer
    · intro more
      rcases more with earlier | here
      · exact Or.inl earlier
      · rcases holds.noted here with noted | ⟨target, member, long⟩
        · exact Or.inr noted
        · exact Or.inl ⟨target, inside member, long⟩

/-- A table that is filled along an order. Every entry is made from those below it. -/
theorem follows_fold [DecidableEq α] {τ : Type} {enter : τ → α → τ} {lists : τ → α → List β}
    {noted : τ → Bool} (collect : τ → α → Capped β) {start : τ}
    (ordered : Postordered targets order) (blank : noted start = false)
    (enters : ∀ table, ∀ vertex ∈ order, lists (enter table vertex) =
      fun other => if vertex = other then (collect table vertex).values else lists table other)
    (notes : ∀ table, ∀ vertex ∈ order,
      noted (enter table vertex) = (noted table || (collect table vertex).cut))
    (holds : ∀ table, ∀ vertex ∈ order, ∀ next, targets vertex = some next →
      (∀ target ∈ next, target ∈ order ∧ lists table target = (full target).take limit) →
      (collect table vertex).Holds limit (∃ target ∈ next, limit < (full target).length)
        (full vertex)) :
    Follows full limit order (lists (order.foldl enter start)) (noted (order.foldl enter start)) := by
  induction ordered with
  | nil =>
    rw [List.foldl_nil, blank]
    exact follows_nil full limit _
  | @leave order vertex next before fresh known below ih =>
    have last : vertex ∈ order ++ [vertex] := List.mem_append_right _ List.mem_cons_self
    have earlier : ∀ {other}, other ∈ order → other ∈ order ++ [vertex] := List.mem_append_left _
    have follows := ih (fun table other member => enters table other (earlier member))
      (fun table other member => notes table other (earlier member)) (by
        intro table other member next known lower
        exact holds table other (earlier member) next known fun target inside =>
          ⟨earlier (lower target inside).1, (lower target inside).2⟩)
    rw [List.foldl_append, List.foldl_cons, List.foldl_nil, enters _ _ last, notes _ _ last]
    apply follows.enter below
    apply holds _ _ last next known
    intro target inside
    exact ⟨earlier (below inside), follows.kept target (below inside)⟩

/-- What never shrinks from a vertex up to those that lead to it is largest at the top. -/
theorem Postordered.le_of_path (ordered : Postordered targets order) (size : α → Nat)
    (grows : ∀ vertex ∈ order, ∀ target, Leads targets vertex target → size target ≤ size vertex)
    {goal vertex : α} (member : goal ∈ order)
    (path : Relation.ReflTransGen (Leads targets) goal vertex) :
    vertex ∈ order ∧ size vertex ≤ size goal := by
  induction path with
  | refl => exact ⟨member, Nat.le_refl _⟩
  | tail _ edge ih => exact ⟨ordered.closed ih.1 edge, Nat.le_trans (grows _ ih.1 _ edge) ih.2⟩

/-- After a walk the table notes a cut exactly if the full list of a goal is too long. -/
theorem Follows.cut_iff_goal [BEq α] [Hashable α] {goals : List α} {walk : Walk α}
    (follows : Follows full limit walk.order.toList kept cut)
    (reaches : Walk.Reaches targets Walk.start goals walk)
    (grows : ∀ vertex ∈ walk.order.toList, ∀ target, Leads targets vertex target →
      (full target).length ≤ (full vertex).length) :
    cut = true ↔ ∃ goal ∈ goals, limit < (full goal).length := by
  rw [follows.cut_iff]
  constructor
  · intro long
    obtain ⟨vertex, member, more⟩ := long
    obtain ⟨goal, start, path⟩ := reaches.only member
    have fewer := (reaches.sorted.postordered.le_of_path _ grows (reaches.covers start) path).2
    exact ⟨goal, start, Nat.lt_of_lt_of_le more fewer⟩
  · intro long
    obtain ⟨goal, start, more⟩ := long
    exact ⟨goal, reaches.covers start, more⟩

end Readings
