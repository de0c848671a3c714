import Readings.Proofs.Answers
import Readings.Proofs.ForestTrees
import Mathlib.Algebra.GroupWithZero.Nat

/-! Counting the trees of a forest. A count that leaves the range stays at its end, and what is counted
from such counts is still the true number as far as counts go. -/

namespace Readings

/-- A number as far as counts go. -/
def capped (count : Nat) : Nat := min count derivationCountMax

private theorem capped_add (a b : Nat) : min (capped a + capped b) derivationCountMax = capped (a + b) := by
  simp only [capped]
  omega

/-- A factor beyond the end takes the product there, unless the other one is nothing. -/
private theorem capped_mul_beyond {a b : Nat} (beyond : derivationCountMax < a) (some : 0 < b) :
    min (capped a * capped b) derivationCountMax = capped (a * b) := by
  have factor : 0 < capped b := Nat.lt_min.mpr ⟨some, by decide⟩
  have left := Nat.le_mul_of_pos_right derivationCountMax factor
  have right := Nat.le_mul_of_pos_right a some
  have end_a : capped a = derivationCountMax := Nat.min_eq_right (Nat.le_of_lt beyond)
  rw [end_a, Nat.min_eq_right left, capped]
  omega

private theorem capped_mul (a b : Nat) : min (capped a * capped b) derivationCountMax = capped (a * b) := by
  by_cases none : a = 0 ∨ b = 0
  · rcases none with rfl | rfl <;> simp [capped]
  · by_cases first : derivationCountMax < a
    · exact capped_mul_beyond first (by omega)
    · by_cases second : derivationCountMax < b
      · rw [Nat.mul_comm (capped a), Nat.mul_comm a]
        exact capped_mul_beyond second (by omega)
      · have small_a : capped a = a := Nat.min_eq_left (by omega)
        have small_b : capped b = b := Nat.min_eq_left (by omega)
        rw [small_a, small_b, capped]

private theorem foldl_add_capped (counts : List Nat) (start : Nat) :
    (counts.map capped).foldl (fun sum count => min (sum + count) derivationCountMax) (capped start) =
      capped (start + counts.sum) := by
  induction counts generalizing start with
  | nil => rfl
  | cons count counts ih =>
    simp only [List.map_cons, List.foldl_cons, List.sum_cons, capped_add, ih, Nat.add_assoc]

private theorem foldl_mul_capped (counts : List Nat) (start : Nat) :
    (counts.map capped).foldl (fun product count => min (product * count) derivationCountMax)
      (capped start) = capped (start * counts.prod) := by
  induction counts generalizing start with
  | nil => simp
  | cons count counts ih =>
    simp only [List.map_cons, List.foldl_cons, List.prod_cons, capped_mul, ih, Nat.mul_assoc]

namespace Forest

variable {forest : Forest}

structure Counted (forest : Forest) (done : Nat) (counts : Array Nat) : Prop where
  size : counts.size = done
  count : ∀ id < done, counts[id]? = some (capped (forest.trees id).length)

private theorem countNode_eq {done : Nat} {counts : Array Nat} (counted : Counted forest done counts)
    {node : ForestNode} (below : ∀ child ∈ node.successors, child < done) :
    countNode counts node = .ok (capped (node.fullTrees forest.trees).length) := by
  have same : ∀ ids : List NodeId, ids.map (fun id => capped (forest.trees id).length) =
      (ids.map fun id => (forest.trees id).length).map capped := by
    intro ids
    rw [List.map_map]
    rfl
  rw [countNode, mapM_ok fun child => capped (forest.trees child).length]
  swap
  · intro child member
    simp only [counted.count child (below child member)]
  cases node with
  | leaf token span => rfl
  | choice symbol span alternatives =>
    change Except.ok (List.foldl _ (capped 0) _) = _
    rw [ForestNode.successors, same, foldl_add_capped, ForestNode.fullTrees, List.length_flatMap,
      Nat.zero_add]
  | application rule symbol span children priority action =>
    change Except.ok (List.foldl _ (capped 1) _) = _
    rw [ForestNode.successors, same, foldl_mul_capped, ForestNode.fullTrees, List.length_map,
      length_sequences, Nat.one_mul]

private theorem counted_all (layered : forest.Layered) {done rest : List ForestNode}
    (split : forest.nodes.toList = done ++ rest) {counts : Array Nat}
    (counted : Counted forest done.length counts) :
    ∃ result, rest.foldlM (fun counts node => counts.push <$> countNode counts node) counts = .ok result ∧
      Counted forest forest.size result := by
  induction rest generalizing done counts with
  | nil =>
    refine ⟨counts, rfl, ?_⟩
    have all : forest.size = done.length := by simp [size, ← Array.length_toList, split]
    exact all ▸ counted
  | cons node rest ih =>
    have found : forest.node? done.length = some node := by
      simp [node?, ← Array.getElem?_toList, split]
    have counted_node := countNode_eq counted (layered.earlier _ node found)
    have next : Counted forest (done ++ [node]).length
        (counts.push (capped (node.fullTrees forest.trees).length)) := by
      refine ⟨by simp [counted.size], ?_⟩
      intro id inside
      rw [Array.getElem?_push, counted.size]
      split
      next last => rw [last, layered.trees_eq found]
      next early =>
        simp only [List.length_append, List.length_singleton] at inside
        exact counted.count id (by omega)
    obtain ⟨result, folded, all⟩ := ih (by rw [split, List.append_assoc]; rfl) next
    refine ⟨result, ?_, all⟩
    rw [List.foldlM_cons, counted_node]
    exact folded

/-- Counting a layered forest finds for every node the number of its trees, as far as counts go. -/
theorem Layered.countAll_eq (layered : forest.Layered) :
    ∃ counts, forest.countAll = .ok counts ∧ Counted forest forest.size counts := by
  rw [countAll, ← Array.foldlM_toList]
  exact counted_all layered (List.nil_append _).symm
    ⟨rfl, fun _ inside => absurd inside (Nat.not_lt_zero _)⟩

theorem Layered.stats_eq (layered : forest.Layered) {root : NodeId} (rooted : forest.root = some root)
    (inside : root < forest.size) :
    ∃ stats, forest.stats = .ok stats ∧ stats.derivations = capped (forest.trees root).length := by
  obtain ⟨counts, all, counted⟩ := layered.countAll_eq
  have count : forest.countDerivations root = .ok (capped (forest.trees root).length) := by
    rw [countDerivations, all]
    change Except.ok (counts.getD root 0) = _
    rw [Array.getD_eq_getD_getElem?, counted.count root inside]
    rfl
  rw [stats, rooted]
  simp only [count]
  exact ⟨_, rfl, rfl⟩

end Forest

end Readings
