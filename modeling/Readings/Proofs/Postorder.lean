import Readings.Postorder
import Mathlib.Logic.Function.Basic
import Mathlib.Logic.Relation
import Mathlib.Order.Lattice

/-! Walks through graphs without cycles. A walk with enough fuel comes to its end and leaves every
vertex once, behind the vertices it leads to; so a computation along the walk solves the equations
that say how the value of a vertex depends on those of the vertices it leads to. -/

namespace Readings

variable {α : Type}

def Leads (targets : α → Option (List α)) (vertex target : α) : Prop :=
  ∃ next, targets vertex = some next ∧ target ∈ next

theorem leads_some_iff {next : α → List α} {vertex target : α} :
    Leads (fun vertex => some (next vertex)) vertex target ↔ target ∈ next vertex := by
  simp only [Leads, Option.some.injEq, exists_eq_left']

/-- Lists that hold every vertex once, behind all the vertices it leads to. -/
inductive Postordered (targets : α → Option (List α)) : List α → Prop where
  | nil : Postordered targets []
  | leave {order : List α} {vertex : α} {next : List α} (before : Postordered targets order)
      (fresh : vertex ∉ order) (known : targets vertex = some next) (below : next ⊆ order) :
      Postordered targets (order ++ [vertex])

/-- A part of a graph that no edge leaves, with heights that fall along the edges. -/
structure Graded (targets : α → Option (List α)) (inside : α → Prop) (height : α → Nat) : Prop where
  falls : ∀ vertex, inside vertex → ∃ next, targets vertex = some next ∧
    ∀ target ∈ next, inside target ∧ height target < height vertex

section Order
variable {targets : α → Option (List α)}

theorem Postordered.closed {order : List α} (ordered : Postordered targets order) {vertex target : α}
    (member : vertex ∈ order) (leads : Leads targets vertex target) : target ∈ order := by
  induction ordered with
  | nil => exact absurd member List.not_mem_nil
  | leave before fresh known below ih =>
    rcases List.mem_append.mp member with member | last
    · exact List.mem_append_left _ (ih member)
    · obtain rfl := List.mem_singleton.mp last
      obtain ⟨next, found, inside⟩ := leads
      obtain rfl : _ = next := Option.some.inj (known.symm.trans found)
      exact List.mem_append_left _ (below inside)

theorem Postordered.congr {others : α → Option (List α)} {order : List α}
    (ordered : Postordered targets order) (same : ∀ vertex ∈ order, targets vertex = others vertex) :
    Postordered others order := by
  induction ordered with
  | nil => exact .nil
  | leave _ fresh known below ih =>
    have here := same _ (List.mem_append_right _ List.mem_cons_self)
    exact (ih fun other member => same other (List.mem_append_left _ member)).leave fresh
      (here ▸ known) below

/-- What every vertex gets from the vertices it leads to, all vertices get from somewhere: equations
along the edges have a solution. -/
theorem Postordered.exists_solution {β : Type} [Inhabited β] {order : List α}
    (ordered : Postordered targets order) (step : (α → β) → α → β)
    (isLocal : ∀ f g vertex, (∀ target, Leads targets vertex target → f target = g target) →
      step f vertex = step g vertex) :
    ∃ solution : α → β, ∀ vertex ∈ order, solution vertex = step solution vertex := by
  classical
  induction ordered with
  | nil => exact ⟨fun _ => default, fun _ member => absurd member List.not_mem_nil⟩
  | @leave order vertex next before fresh known below ih =>
    obtain ⟨solution, solves⟩ := ih
    have same : ∀ other ∈ order ++ [vertex], ∀ target, Leads targets other target →
        solution target = Function.update solution vertex (step solution vertex) target := by
      intro other member target leads
      have inside : target ∈ order := by
        rcases List.mem_append.mp member with member | last
        · exact before.closed member leads
        · obtain rfl := List.mem_singleton.mp last
          obtain ⟨_, found, inside⟩ := leads
          exact below (Option.some.inj (known.symm.trans found) ▸ inside)
      have other : target ≠ vertex := fun same => fresh (same ▸ inside)
      simp only [Function.update_of_ne other]
    refine ⟨Function.update solution vertex (step solution vertex), ?_⟩
    intro other member
    rw [← isLocal _ _ other (same other member)]
    by_cases last : other = vertex
    · subst last
      simp only [Function.update_self]
    · have earlier : other ∈ order := by simpa [last] using member
      simp only [Function.update_of_ne last, solves other earlier]

theorem Graded.reach {inside : α → Prop} {height : α → Nat} (graded : Graded targets inside height)
    {vertex target : α} (start : inside vertex)
    (path : Relation.ReflTransGen (Leads targets) vertex target) :
    inside target ∧ height target ≤ height vertex := by
  induction path with
  | refl => exact ⟨start, Nat.le_refl _⟩
  | tail _ edge ih =>
    obtain ⟨next, known, falls⟩ := graded.falls _ ih.1
    obtain ⟨other, found, member⟩ := edge
    obtain rfl := Option.some.inj (known.symm.trans found)
    exact ⟨(falls _ member).1, Nat.le_trans (Nat.le_of_lt (falls _ member).2) ih.2⟩

theorem Postordered.induction {order : List α} (ordered : Postordered targets order)
    {property : α → Prop}
    (step : ∀ vertex ∈ order, (∀ target, Leads targets vertex target → property target) →
      property vertex) : ∀ vertex ∈ order, property vertex := by
  induction ordered with
  | nil => exact fun _ member => absurd member List.not_mem_nil
  | @leave order vertex next before fresh known below ih =>
    have earlier := ih fun other member => step other (List.mem_append_left _ member)
    intro other member
    rcases List.mem_append.mp member with member | last
    · exact earlier other member
    · apply step other (List.mem_append_right _ last)
      intro target leads
      obtain rfl := List.mem_singleton.mp last
      obtain ⟨_, found, inside⟩ := leads
      exact earlier target (below (Option.some.inj (known.symm.trans found) ▸ inside))

private theorem countP_lt {items : List α} {lower upper : α → Bool}
    (implies : ∀ item, lower item = true → upper item = true) {item : α} (member : item ∈ items)
    (above : upper item = true) (below : lower item = false) :
    items.countP lower < items.countP upper := by
  induction items with
  | nil => exact absurd member List.not_mem_nil
  | cons first items ih =>
    have rest := List.countP_mono_left (l := items) fun other _ => implies other
    rcases List.mem_cons.mp member with rfl | member
    · simp only [List.countP_cons, above, below, Bool.false_eq_true, ite_true, ite_false]
      omega
    · have later := ih member
      have here : (if lower first = true then 1 else 0) ≤ if upper first = true then 1 else 0 := by
        split
        next low => simp [implies first low]
        next => exact Nat.zero_le _
      simp only [List.countP_cons]
      omega

/-- How many of some vertices weigh less than a vertex. -/
def lighter {γ : Type} [LinearOrder γ] (weight : α → γ) (vertices : List α) (vertex : α) : Nat :=
  vertices.countP fun other => decide (weight other < weight vertex)

theorem lighter_lt {γ : Type} [LinearOrder γ] {weight : α → γ} {vertices : List α}
    {target vertex : α} (member : target ∈ vertices) (less : weight target < weight vertex) :
    lighter weight vertices target < lighter weight vertices vertex := by
  apply countP_lt ?_ member (by simpa using less) (by simp)
  intro other lower
  simp only [decide_eq_true_eq] at lower ⊢
  exact lt_trans lower less

theorem lighter_lt_length {γ : Type} [LinearOrder γ] {weight : α → γ} {vertices : List α}
    {vertex : α} (member : vertex ∈ vertices) :
    lighter weight vertices vertex < vertices.length := by
  have less : lighter weight vertices vertex < vertices.countP fun _ => true :=
    countP_lt (fun _ _ => rfl) member rfl (decide_eq_false (lt_irrefl (weight vertex)))
  simpa using less

/-- Among finitely many vertices weights that fall along the edges give heights. -/
theorem Graded.of_weights {γ : Type} [LinearOrder γ] {vertices : List α} (weight : α → γ)
    (falls : ∀ vertex ∈ vertices, ∃ next, targets vertex = some next ∧
      ∀ target ∈ next, target ∈ vertices ∧ weight target < weight vertex) :
    Graded targets (· ∈ vertices) (lighter weight vertices) := by
  constructor
  intro vertex member
  obtain ⟨next, known, below⟩ := falls vertex member
  refine ⟨next, known, ?_⟩
  intro target leads
  obtain ⟨inside, less⟩ := below target leads
  exact ⟨inside, lighter_lt inside less⟩

end Order

namespace Walk
variable [BEq α] [Hashable α]

/-- The vertices left are those in the order, and the order is one in which they can be left. -/
structure Sorted (targets : α → Option (List α)) (walk : Walk α) : Prop where
  postordered : Postordered targets walk.order.toList
  left_iff : ∀ vertex, walk.left.contains vertex = true ↔ vertex ∈ walk.order.toList

/-- A walk that was continued to some goals, and to nothing that they do not lead to. -/
structure Reaches (targets : α → Option (List α)) (walk : Walk α) (goals : List α)
    (result : Walk α) : Prop where
  sorted : Sorted targets result
  covers : goals ⊆ result.order.toList
  grows : ∃ added, result.order.toList = walk.order.toList ++ added ∧
    ∀ vertex ∈ added, ∃ goal ∈ goals, Relation.ReflTransGen (Leads targets) goal vertex

variable {targets : α → Option (List α)} {inside : α → Prop} {height : α → Nat}

theorem sorted_start : Sorted targets (Walk.start : Walk α) :=
  ⟨.nil, by simp [Walk.start]⟩

theorem Reaches.only {goals : List α} {result : Walk α}
    (reaches : Reaches targets Walk.start goals result) {vertex : α}
    (member : vertex ∈ result.order.toList) :
    ∃ goal ∈ goals, Relation.ReflTransGen (Leads targets) goal vertex := by
  obtain ⟨added, grown, path⟩ := reaches.grows
  exact path vertex (by simpa [grown, Walk.start] using member)

theorem Reaches.stays (graded : Graded targets inside height) {goals : List α} {result : Walk α}
    (reaches : Reaches targets Walk.start goals result) (start : ∀ goal ∈ goals, inside goal) :
    ∀ vertex ∈ result.order.toList, inside vertex := by
  intro vertex member
  obtain ⟨goal, known, path⟩ := reaches.only member
  exact (graded.reach (start goal known) path).1

/-- The claim for the visit of one vertex with some fuel. -/
private def Ends (targets : α → Option (List α)) (inside : α → Prop) (height : α → Nat)
    (fuel : Nat) : Prop :=
  ∀ (walk : Walk α) (vertex : α), Sorted targets walk → inside vertex → height vertex < fuel →
    ∃ result, visit targets fuel walk vertex = .ok result ∧ Reaches targets walk [vertex] result

private theorem visitAll_ends {fuel : Nat} (ends : Ends targets inside height fuel)
    {walk : Walk α} {goals : List α} (sorted : Sorted targets walk)
    (fit : ∀ goal ∈ goals, inside goal ∧ height goal < fuel) :
    ∃ result, goals.foldlM (visit targets fuel) walk = .ok result ∧
      Reaches targets walk goals result := by
  induction goals generalizing walk with
  | nil => exact ⟨walk, rfl, sorted, List.nil_subset _, [], by simp, by simp⟩
  | cons goal goals ih =>
    have here := fit goal List.mem_cons_self
    obtain ⟨middle, visited, first⟩ := ends walk goal sorted here.1 here.2
    obtain ⟨result, walked, rest⟩ := ih first.sorted fun other member =>
      fit other (List.mem_cons_of_mem _ member)
    obtain ⟨early, grown, fromGoal⟩ := first.grows
    obtain ⟨late, further, fromGoals⟩ := rest.grows
    refine ⟨result, ?_, rest.sorted, ?_, early ++ late, ?_, ?_⟩
    · rw [List.foldlM_cons, visited]
      exact walked
    · refine List.cons_subset.mpr ⟨?_, rest.covers⟩
      rw [further]
      exact List.mem_append_left _ (first.covers List.mem_cons_self)
    · rw [further, grown, List.append_assoc]
    · intro vertex member
      rcases List.mem_append.mp member with member | member
      · obtain ⟨source, only, path⟩ := fromGoal vertex member
        obtain rfl := List.mem_singleton.mp only
        exact ⟨_, List.mem_cons_self, path⟩
      · obtain ⟨source, found, path⟩ := fromGoals vertex member
        exact ⟨source, List.mem_cons_of_mem _ found, path⟩

variable [LawfulBEq α]

private theorem Sorted.leave {walk : Walk α} (sorted : Sorted targets walk) {vertex : α}
    {next : List α} (fresh : vertex ∉ walk.order.toList) (known : targets vertex = some next)
    (below : next ⊆ walk.order.toList) : Sorted targets (walk.leave vertex) := by
  constructor
  · simpa only [Walk.leave, Array.toList_push] using sorted.postordered.leave fresh known below
  · intro other
    simp only [Walk.leave, Std.HashSet.contains_insert, Bool.or_eq_true, beq_iff_eq, sorted.left_iff,
      Array.toList_push, List.mem_append, List.mem_singleton]
    exact ⟨fun found => found.symm.imp id Eq.symm, fun found => (found.imp id Eq.symm).symm⟩

private theorem visit_ends (graded : Graded targets inside height) (fuel : Nat) :
    Ends targets inside height fuel := by
  induction fuel with
  | zero =>
    intro walk vertex _ _ enough
    exact absurd enough (Nat.not_lt_zero _)
  | succ fuel ih =>
    intro walk vertex sorted start enough
    simp only [visit]
    split
    next left =>
      exact ⟨walk, rfl, sorted, by simpa using (sorted.left_iff vertex).mp left, [], by simp, by simp⟩
    next unseen =>
      obtain ⟨next, known, falls⟩ := graded.falls vertex start
      have fit : ∀ target ∈ next, inside target ∧ height target < fuel := by
        intro target member
        have lower := (falls target member).2
        exact ⟨(falls target member).1, by omega⟩
      obtain ⟨middle, walked, below⟩ := visitAll_ends ih sorted fit
      obtain ⟨added, grown, fromNext⟩ := below.grows
      simp only [known, walked]
      -- The vertices below have smaller heights, so the vertex itself is not among them.
      have fresh : vertex ∉ middle.order.toList := by
        rw [grown, List.mem_append, not_or]
        refine ⟨fun early => unseen ((sorted.left_iff vertex).mpr early), ?_⟩
        intro late
        obtain ⟨target, member, path⟩ := fromNext vertex late
        have lower := (falls target member).2
        have bound := (graded.reach (falls target member).1 path).2
        omega
      refine ⟨_, rfl, below.sorted.leave fresh known below.covers, by simp [Walk.leave],
        added ++ [vertex], by simp [Walk.leave, grown], ?_⟩
      intro other member
      refine ⟨vertex, List.mem_cons_self, ?_⟩
      rcases List.mem_append.mp member with member | last
      · obtain ⟨target, found, path⟩ := fromNext other member
        exact Relation.ReflTransGen.head ⟨next, known, found⟩ path
      · exact List.mem_singleton.mp last ▸ Relation.ReflTransGen.refl

theorem visitAll_reaches (graded : Graded targets inside height) (fuel : Nat) {goals : List α}
    (fit : ∀ goal ∈ goals, inside goal ∧ height goal < fuel) :
    ∃ result, Walk.start.visitAll targets fuel goals = .ok result ∧
      Reaches targets Walk.start goals result :=
  visitAll_ends (visit_ends graded fuel) sorted_start fit

theorem visit_reaches (graded : Graded targets inside height) (fuel : Nat) {goal : α}
    (start : inside goal) (enough : height goal < fuel) :
    ∃ result, Walk.start.visit targets fuel goal = .ok result ∧
      Reaches targets Walk.start [goal] result :=
  visit_ends graded fuel Walk.start goal sorted_start start enough

end Walk

end Readings
