import Mathlib.Data.List.Destutter
import Mathlib.Order.Basic

/-! Lists without the values that repeat the one before. Nothing is lost, and what was in order is then
strictly ascending. -/

namespace Readings

theorem eraseReps_eq {α : Type} [DecidableEq α] (values : List α) :
    values.eraseReps = values.destutter (· ≠ ·) := by
  have loop : ∀ (last : α) (rest kept : List α),
      List.eraseRepsBy.loop (· == ·) last rest kept =
        kept.reverse ++ rest.destutter' (· ≠ ·) last := by
    intro last rest
    induction rest generalizing last with
    | nil => simp [List.eraseRepsBy.loop]
    | cons first rest ih =>
      intro kept
      by_cases same : last = first
      · simp [List.eraseRepsBy.loop, List.destutter', same, ih]
      · simp [List.eraseRepsBy.loop, List.destutter', same, ih, beq_eq_false_iff_ne.mpr same]
  cases values with
  | nil => rfl
  | cons first rest => exact loop first rest []

theorem mem_eraseReps {α : Type} [DecidableEq α] {value : α} {values : List α} :
    value ∈ values.eraseReps ↔ value ∈ values := by
  rw [eraseReps_eq]
  refine ⟨fun kept => (values.destutter_sublist _).subset kept, ?_⟩
  have kept : ∀ (rest : List α) (last : α), value ∈ last :: rest → value ∈ rest.destutter' (· ≠ ·) last := by
    intro rest
    induction rest with
    | nil => exact fun _ member => member
    | cons first rest ih =>
      intro last member
      by_cases same : last = first
      · rw [List.destutter'_cons_neg _ (not_not.mpr same)]
        exact ih last (by simpa [same] using member)
      · rw [List.destutter'_cons_pos _ same]
        rcases List.mem_cons.mp member with rfl | later
        · exact List.mem_cons_self
        · exact List.mem_cons_of_mem _ (ih first later)
  cases values with
  | nil => exact id
  | cons first rest => exact kept rest first

theorem ascending_eraseReps {α β : Type} [DecidableEq α] [PartialOrder β] {key : α → β}
    (injective : Function.Injective key) {values : List α}
    (sorted : values.Pairwise fun a b => key a ≤ key b) :
    values.eraseReps.Pairwise fun a b => key a < key b := by
  rw [eraseReps_eq]
  have ordered := (sorted.sublist (values.destutter_sublist (· ≠ ·))).isChain
  have different := values.isChain_destutter (· ≠ ·)
  have rises : (values.destutter (· ≠ ·)).IsChain fun a b => key a < key b := by
    rw [List.isChain_iff_getElem] at ordered different ⊢
    intro index inside
    exact lt_of_le_of_ne (ordered index inside) fun same => different index inside (injective same)
  have trans : Trans (fun a b => key a < key b) (fun a b => key a < key b)
      (fun a b => key a < key b) := ⟨fun first second => lt_trans first second⟩
  exact rises.pairwise

end Readings
