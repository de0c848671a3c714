import Readings.Proofs.ChartSoundness
import Mathlib.Algebra.GroupWithZero.Nat

/-! The number of items in a set is bounded: an item is a rule of the grammar, a place in its right
side, and an origin that is not behind the set. -/

namespace Readings

def possibleItems (grammar : Grammar) (position : Nat) : List Item :=
  grammar.rules.toList.zipIdx.flatMap fun (rule, id) =>
    (List.range (rule.rhs.length + 1)).flatMap fun dot =>
      (List.range (position + 1)).map fun origin => ⟨id, dot, origin⟩

private theorem sum_map_mul {α : Type} (items : List α) (f : α → Nat) (factor : Nat) :
    (items.map fun item => f item * factor).sum = factor * (items.map f).sum := by
  induction items with
  | nil => simp
  | cons item items ih =>
    simp only [List.map_cons, List.sum_cons, ih, Nat.mul_add]
    rw [Nat.mul_comm]

theorem length_possibleItems (grammar : Grammar) (position : Nat) :
    (possibleItems grammar position).length = itemBound grammar position := by
  have rules : grammar.rules.toList.zipIdx.map (fun entry => entry.1.rhs.length + 1) =
      grammar.rules.toList.map fun rule => rule.rhs.length + 1 := by
    rw [show (fun entry : Rule × Nat => entry.1.rhs.length + 1) =
      (fun rule : Rule => rule.rhs.length + 1) ∘ Prod.fst from rfl, ← List.map_map,
      List.zipIdx_map_fst]
  simp only [possibleItems, List.length_flatMap, List.length_map, List.length_range, List.map_const',
    List.sum_replicate_nat, itemBound]
  rw [sum_map_mul, rules, List.sum_eq_foldr]

variable {grammar : Grammar} {tokens : Array Token}

theorem Grounded.mem_possibleItems {sets : Array ChartSet} {position : Nat} {item : Item}
    (grounded : Grounded grammar tokens sets position item) :
    item ∈ possibleItems grammar position := by
  obtain ⟨symbol, known⟩ := grounded.known
  obtain ⟨rule, found, -, same⟩ := Grammar.rule_of_lhs known
  have short := grounded.short
  have ordered := grounded.ordered
  rw [same] at short
  refine List.mem_flatMap.mpr ⟨(rule, item.rule), ?_, ?_⟩
  · simpa [List.mk_mem_zipIdx_iff_getElem?] using found
  · refine List.mem_flatMap.mpr ⟨item.dot, List.mem_range.mpr (by omega), ?_⟩
    exact List.mem_map.mpr ⟨item.origin, List.mem_range.mpr (by omega), rfl⟩

theorem Sound.length_le {sets : Array ChartSet} (sound : Sound grammar tokens sets) (position : Nat) :
    (setAt sets position).items.length ≤ itemBound grammar position := by
  rw [← length_possibleItems]
  apply (sound.distinct position).length_le_of_subset
  intro item member
  exact (sound.grounded position item member).mem_possibleItems

end Readings
