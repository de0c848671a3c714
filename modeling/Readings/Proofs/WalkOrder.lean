import Readings.Proofs.Answers
import Readings.Proofs.Postorder

/-! The order in which a walk leaves the vertices. It is determined by the graph and the goal alone. If
vertices that lead to a single other one are drawn together with it, a walk through the smaller graph
leaves what remains in the same order. -/

namespace Readings

variable {α β : Type}

/-- A walk to some goals, one after the other: what was left before, and what is left at the end. A
vertex is left after what it leads to, and passed over if it was left before. -/
inductive Traverses (targets : α → Option (List α)) : List α → List α → List α → Prop where
  | done (order : List α) : Traverses targets order [] order
  | pass {order goals last : List α} {vertex : α} (left : vertex ∈ order)
      (rest : Traverses targets order goals last) : Traverses targets order (vertex :: goals) last
  | enter {order next middle goals last : List α} {vertex : α} (fresh : vertex ∉ order)
      (known : targets vertex = some next) (below : Traverses targets order next middle)
      (rest : Traverses targets (middle ++ [vertex]) goals last) :
      Traverses targets order (vertex :: goals) last

def IsSealed (targets : α → Option (List α)) (inside : α → Prop) : Prop :=
  ∀ vertex, inside vertex → ∀ target, Leads targets vertex target → inside target

namespace Traverses

variable {targets : α → Option (List α)} {order goals last : List α} {inside : α → Prop}

theorem grows (visits : Traverses targets order goals last) : order ⊆ last := by
  induction visits with
  | done => exact List.Subset.refl _
  | pass _ _ ih => exact ih
  | enter _ _ _ _ below rest =>
    exact List.Subset.trans (List.Subset.trans below (List.subset_append_left _ _)) rest

theorem covers (visits : Traverses targets order goals last) : goals ⊆ last := by
  induction visits with
  | done => exact List.nil_subset _
  | pass left rest ih => exact List.cons_subset.mpr ⟨rest.grows left, ih⟩
  | enter _ _ _ rest _ ih =>
    exact List.cons_subset.mpr ⟨rest.grows (List.mem_append_right _ List.mem_cons_self), ih⟩

/-- Where a walk ends is determined by where it starts. -/
theorem unique {other : List α} (visits : Traverses targets order goals last)
    (again : Traverses targets order goals other) : last = other := by
  induction visits generalizing other with
  | done =>
    cases again
    rfl
  | pass left _ ih =>
    cases again with
    | pass _ rest => exact ih rest
    | enter fresh => exact absurd left fresh
  | enter fresh known _ _ below rest =>
    cases again with
    | pass left => exact absurd left fresh
    | enter _ found first second =>
      obtain rfl := Option.some.inj (known.symm.trans found)
      obtain rfl := below first
      exact rest second

theorem append {more middle : List α} (first : Traverses targets order goals middle)
    (second : Traverses targets middle more last) : Traverses targets order (goals ++ more) last := by
  induction first with
  | done => exact second
  | pass left _ ih => exact .pass left (ih second)
  | enter fresh known below _ _ ih => exact .enter fresh known below (ih second)

theorem stays (visits : Traverses targets order goals last) (shut : IsSealed targets inside)
    (before : ∀ vertex ∈ order, inside vertex) (start : ∀ goal ∈ goals, inside goal) :
    ∀ vertex ∈ last, inside vertex := by
  induction visits with
  | done => exact before
  | pass _ _ ih => exact ih before (List.forall_mem_cons.mp start).2
  | enter _ known _ _ below rest =>
    obtain ⟨here, others⟩ := List.forall_mem_cons.mp start
    have middle := below before fun target member => shut _ here target ⟨_, known, member⟩
    refine rest ?_ others
    intro vertex member
    rcases List.mem_append.mp member with early | late
    · exact middle vertex early
    · exact List.mem_singleton.mp late ▸ here

/-- What a vertex leads to was left with it. -/
theorem isSealed (visits : Traverses targets order goals last) (before : IsSealed targets (· ∈ order)) :
    IsSealed targets (· ∈ last) := by
  induction visits with
  | done => exact before
  | pass _ _ ih => exact ih before
  | enter _ known first _ below rest =>
    apply rest
    intro vertex member target leads
    apply List.mem_append_left
    rcases List.mem_append.mp member with early | late
    · exact below before vertex early target leads
    · obtain rfl := List.mem_singleton.mp late
      obtain ⟨next, found, inside⟩ := leads
      obtain rfl := Option.some.inj (known.symm.trans found)
      exact first.covers inside

theorem congr {others : α → Option (List α)} (visits : Traverses targets order goals last)
    (shut : IsSealed targets inside) (same : ∀ vertex, inside vertex → targets vertex = others vertex)
    (start : ∀ goal ∈ goals, inside goal) : Traverses others order goals last := by
  induction visits with
  | done => exact .done _
  | pass left _ ih => exact .pass left (ih (List.forall_mem_cons.mp start).2)
  | enter fresh known _ _ below rest =>
    obtain ⟨here, others⟩ := List.forall_mem_cons.mp start
    exact .enter fresh (same _ here ▸ known)
      (below fun target member => shut _ here target ⟨_, known, member⟩) (rest others)

end Traverses

/-- A graph drawn together to another one: a vertex without a place of its own leads to a single one,
which has a place, and stands there, too. -/
structure Contracts (targets : α → Option (List α)) (others : β → Option (List β))
    (inside : α → Prop) (own : α → Bool) (place : α → β) : Prop where
  shut : IsSealed targets inside
  distinct : ∀ vertex other, inside vertex → inside other → own vertex = true → own other = true →
    place vertex = place other → vertex = other
  alone : ∀ vertex, inside vertex → own vertex = false →
    ∃ only, targets vertex = some [only] ∧ own only = true ∧ place vertex = place only
  same : ∀ vertex next, inside vertex → own vertex = true → targets vertex = some next →
    others (place vertex) = some (next.map place)

namespace Contracts

variable {targets : α → Option (List α)} {others : β → Option (List β)} {inside : α → Prop}
  {own : α → Bool} {place : α → β} (contracts : Contracts targets others inside own place)
include contracts

theorem mem_places_iff {order : List α} (before : ∀ vertex ∈ order, inside vertex) {vertex : α}
    (here : inside vertex) (owns : own vertex = true) :
    place vertex ∈ (order.filter own).map place ↔ vertex ∈ order := by
  constructor
  · intro member
    obtain ⟨other, known, same⟩ := List.mem_map.mp member
    obtain ⟨listed, owner⟩ := List.mem_filter.mp known
    exact contracts.distinct other vertex (before other listed) here owner owns same ▸ listed
  · exact fun member => List.mem_map_of_mem (List.mem_filter.mpr ⟨member, owns⟩)

theorem place_mem {order : List α} (before : ∀ vertex ∈ order, inside vertex)
    (left : IsSealed targets (· ∈ order)) {vertex : α} (member : vertex ∈ order) :
    place vertex ∈ (order.filter own).map place := by
  cases owns : own vertex with
  | true => exact (contracts.mem_places_iff before (before vertex member) owns).mpr member
  | false =>
    obtain ⟨only, known, owner, same⟩ := contracts.alone vertex (before vertex member) owns
    have listed := left vertex member only ⟨_, known, List.mem_cons_self⟩
    exact same ▸ (contracts.mem_places_iff before (before only listed) owner).mpr listed

/-- A walk through the graph drawn together leaves the places in the order of the walk through the
larger one. -/
theorem visits {order goals last : List α} (visits : Traverses targets order goals last)
    (before : ∀ vertex ∈ order, inside vertex) (left : IsSealed targets (· ∈ order))
    (start : ∀ goal ∈ goals, inside goal) :
    Traverses others ((order.filter own).map place) (goals.map place) ((last.filter own).map place) := by
  induction visits with
  | done => exact .done _
  | @pass order goals last vertex member _ ih =>
    exact .pass (contracts.place_mem before left member) (ih before left (List.forall_mem_cons.mp start).2)
  | @enter order next middle goals last vertex fresh known first second below rest =>
    obtain ⟨here, others⟩ := List.forall_mem_cons.mp start
    have lower : ∀ target ∈ next, inside target :=
      fun target member => contracts.shut vertex here target ⟨next, known, member⟩
    have walked := below before left lower
    have after := (Traverses.enter fresh known first (.done _)).stays contracts.shut before
      (List.forall_mem_singleton.mpr here)
    have later := rest after ((Traverses.enter fresh known first (.done _)).isSealed left) others
    rw [List.filter_append, List.filter_singleton, List.map_append] at later
    cases owns : own vertex with
    | true =>
      have new := mt (contracts.mem_places_iff before here owns).mp fresh
      rw [owns] at later
      exact .enter new (contracts.same vertex next here owns known) walked later
    | false =>
      obtain ⟨only, single, -, same⟩ := contracts.alone vertex here owns
      obtain rfl : next = [only] := Option.some.inj (known.symm.trans single)
      rw [owns, cond_false, List.map_nil, List.append_nil] at later
      rw [List.map_cons, same]
      exact walked.append later

end Contracts

namespace Walk
variable [BEq α] [Hashable α] {targets : α → Option (List α)}

/-- The vertices left are those in the order. -/
def Listed (walk : Walk α) : Prop :=
  ∀ vertex, walk.left.contains vertex = true ↔ vertex ∈ walk.order.toList

/-- The claim for the visit of one vertex with some fuel. -/
private def Follows (targets : α → Option (List α)) (fuel : Nat) : Prop :=
  ∀ (walk result : Walk α) (vertex : α), walk.Listed → visit targets fuel walk vertex = .ok result →
    Traverses targets walk.order.toList [vertex] result.order.toList ∧ result.Listed

private theorem visitAll_follows {fuel : Nat} (follows : Follows targets fuel) {walk result : Walk α}
    {goals : List α} (listed : walk.Listed)
    (walked : goals.foldlM (visit targets fuel) walk = .ok result) :
    Traverses targets walk.order.toList goals result.order.toList ∧ result.Listed := by
  induction goals generalizing walk with
  | nil =>
    cases walked
    exact ⟨.done _, listed⟩
  | cons goal goals ih =>
    rw [List.foldlM_cons] at walked
    obtain ⟨middle, visited, rest⟩ := bind_eq_ok_iff.mp walked
    obtain ⟨first, kept⟩ := follows walk middle goal listed visited
    obtain ⟨second, last⟩ := ih kept rest
    exact ⟨first.append second, last⟩

variable [LawfulBEq α]

private theorem Listed.leave {walk : Walk α} (listed : walk.Listed) (vertex : α) :
    (walk.leave vertex).Listed := by
  intro other
  simp only [Walk.leave, Std.HashSet.contains_insert, Bool.or_eq_true, beq_iff_eq, listed other,
    Array.toList_push, List.mem_append, List.mem_singleton]
  rw [or_comm, eq_comm]

private theorem visit_follows (fuel : Nat) : Follows targets fuel := by
  have passed : ∀ {walk : Walk α} {vertex : α}, walk.Listed → walk.left.contains vertex = true →
      Traverses targets walk.order.toList [vertex] walk.order.toList ∧ walk.Listed :=
    fun listed left => ⟨.pass ((listed _).mp left) (.done _), listed⟩
  induction fuel with
  | zero =>
    intro walk result vertex listed visited
    rw [visit] at visited
    split at visited
    next left =>
      cases visited
      exact passed listed left
    next => cases visited
  | succ fuel ih =>
    intro walk result vertex listed visited
    rw [visit] at visited
    split at visited
    next left =>
      cases visited
      exact passed listed left
    next unseen =>
      split at visited
      next => cases visited
      next next known =>
        split at visited
        next middle walked =>
          cases visited
          obtain ⟨below, kept⟩ := visitAll_follows ih listed walked
          refine ⟨.enter (mt (listed vertex).mpr unseen) known below ?_, kept.leave vertex⟩
          rw [leave, Array.toList_push]
          exact .done _
        next => cases visited

theorem visits_of_visit {fuel : Nat} {goal : α} {result : Walk α}
    (visited : Walk.start.visit targets fuel goal = .ok result) :
    Traverses targets [] [goal] result.order.toList := by
  have listed : (Walk.start : Walk α).Listed :=
    (sorted_start : Sorted targets (Walk.start : Walk α)).left_iff
  exact (visit_follows fuel Walk.start result goal listed visited).1

end Walk

end Readings
