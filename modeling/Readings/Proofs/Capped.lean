import Readings.Capped
import Mathlib.Data.List.Flatten
import Mathlib.Data.List.Nodup

/-! Capped lists against the lists they are cut from. A list that takes values in the order of a full
one holds a beginning of it, and notes a cut when the full one is longer than the limit, unless a list
that it was made from was longer than the limit already. Products of beginnings are beginnings of the
product, so capping the factors early changes nothing. -/

namespace Readings

variable {α β γ : Type}

/-- Every `combine a b`, each `a` with every `b` in turn. -/
def pairs (combine : α → β → γ) (firsts : List α) (seconds : List β) : List γ :=
  firsts.flatMap fun first => seconds.map (combine first)

theorem length_pairs (combine : α → β → γ) (firsts : List α) (seconds : List β) :
    (pairs combine firsts seconds).length = firsts.length * seconds.length := by
  induction firsts with
  | nil => simp [pairs]
  | cons first firsts ih =>
    simp only [pairs, List.flatMap_cons, List.length_append, List.length_map, List.length_cons] at ih ⊢
    rw [ih, Nat.succ_mul, Nat.add_comm]

theorem mem_pairs {combine : α → β → γ} {firsts : List α} {seconds : List β} {value : γ} :
    value ∈ pairs combine firsts seconds ↔
      ∃ first ∈ firsts, ∃ second ∈ seconds, combine first second = value := by
  simp only [pairs, List.mem_flatMap, List.mem_map]

theorem nodup_pairs {combine : α → β → γ} {firsts : List α} {seconds : List β}
    (distinct : firsts.Nodup) (others : seconds.Nodup)
    (injective : ∀ a b c d, combine a b = combine c d → a = c ∧ b = d) :
    (pairs combine firsts seconds).Nodup := by
  apply List.nodup_flatMap.mpr
  constructor
  · intro first _
    exact others.map fun a b same => (injective first a first b same).2
  · apply distinct.imp
    intro a c differ value left right
    obtain ⟨b, -, rfl⟩ := List.mem_map.mp left
    obtain ⟨d, -, same⟩ := List.mem_map.mp right
    exact differ (injective c d a b same).1.symm

namespace Capped

theorem products_eq (combine : α → β → γ) (seconds : List β) (room : Nat) (firsts : List α) :
    products combine seconds room firsts = (pairs combine firsts seconds).take room := by
  induction firsts generalizing room with
  | nil => simp [products, pairs]
  | cons first firsts ih =>
    simp only [products, ih, pairs, List.flatMap_cons, List.take_append, List.length_map,
      List.length_take, List.map_take]
    congr 2
    omega

theorem take_pairs (combine : α → β → γ) (firsts : List α) (seconds : List β) {room m n : Nat}
    (few : room ≤ m) (short : room ≤ n) :
    (pairs combine (firsts.take m) (seconds.take n)).take room =
      (pairs combine firsts seconds).take room := by
  induction firsts generalizing room m with
  | nil => simp [pairs]
  | cons first firsts ih =>
    cases room with
    | zero => simp
    | succ room =>
      obtain ⟨m, rfl⟩ := Nat.exists_eq_add_of_le' (Nat.le_trans (Nat.le_add_left 1 room) few)
      by_cases none : seconds = []
      · have empty : ∀ values : List α, pairs combine values ([] : List β) = [] :=
          fun _ => List.flatMap_eq_nil_iff.mpr fun _ _ => rfl
        simp [none, empty]
      · have some : 0 < seconds.length := List.length_pos_of_ne_nil none
        have head : (seconds.take n).take (room + 1) = seconds.take (room + 1) := by
          rw [List.take_take, Nat.min_eq_left short]
        have left : room + 1 - min n seconds.length = room + 1 - seconds.length := by omega
        have tail := ih (show room + 1 - seconds.length ≤ m by omega)
          (show room + 1 - seconds.length ≤ n by omega)
        simp only [pairs] at tail
        simp only [pairs, List.take_succ_cons, List.flatMap_cons, List.take_append, List.length_map,
          List.length_take, ← List.map_take, head, left, tail]

/-- A capped list holds the beginning of a full one. It notes a cut only if the full one is longer than
the limit, and if it is, then there is a cut here or one to blame elsewhere. -/
structure Holds (limit : Nat) (blame : Prop) (list : Capped α) (full : List α) : Prop where
  values : list.values = full.take limit
  longer : list.cut = true → limit < full.length
  noted : limit < full.length → list.cut = true ∨ blame

theorem holds_empty (limit : Nat) (blame : Prop) : Holds limit blame (Capped.empty : Capped α) [] :=
  ⟨by simp [empty], by simp [empty], by simp⟩

theorem holds_singleton {limit : Nat} (positive : 0 < limit) (blame : Prop) (value : α) :
    Holds limit blame ⟨[value], false⟩ [value] :=
  ⟨(List.take_of_length_le positive).symm, nofun, fun more => absurd more (Nat.not_lt.mpr positive)⟩

theorem Holds.map {limit : Nat} {blame : Prop} {list : Capped α} {full : List α}
    (holds : Holds limit blame list full) (f : α → β) :
    Holds limit blame ⟨list.values.map f, list.cut⟩ (full.map f) :=
  ⟨by rw [holds.values, List.map_take], by simpa using holds.longer, by simpa using holds.noted⟩

/-- Offering a part of some values in their place: one that has their beginning, and lacks values only
if there is someone to blame. -/
theorem Holds.offer {limit : Nat} {blame : Prop} {list : Capped α} {full : List α}
    (holds : Holds limit blame list full) {part values : List α}
    (first : part.take limit = values.take limit) (short : part.length ≤ values.length)
    (known : part.length < values.length → blame) :
    Holds limit blame (list.offer limit part) (full ++ values) := by
  have room : limit - list.values.length = limit - full.length := by
    rw [holds.values, List.length_take]
    omega
  have begins : part.take (limit - full.length) = values.take (limit - full.length) := by
    have cut := congrArg (List.take (limit - full.length)) first
    rwa [List.take_take, List.take_take, Nat.min_eq_left (Nat.sub_le _ _)] at cut
  refine ⟨?_, ?_, ?_⟩
  · simp only [Capped.offer, room, begins]
    rw [holds.values, List.take_append]
  · simp only [Capped.offer, room, Bool.or_eq_true, decide_eq_true_eq, List.length_append]
    intro more
    rcases more with earlier | excess
    · have longer := holds.longer earlier
      omega
    · omega
  · intro more
    simp only [Capped.offer, room, Bool.or_eq_true, decide_eq_true_eq]
    rw [List.length_append] at more
    by_cases before : limit < full.length
    · exact (holds.noted before).imp Or.inl id
    · by_cases lacking : part.length < values.length
      · exact Or.inr (known lacking)
      · exact Or.inl (Or.inr (by omega))

theorem Holds.offerTake {limit : Nat} {blame : Prop} {list : Capped α} {full : List α}
    (holds : Holds limit blame list full) {values : List α}
    (known : limit < values.length → blame) :
    Holds limit blame (list.offer limit (values.take limit)) (full ++ values) := by
  apply holds.offer
  · rw [List.take_take, Nat.min_self]
  · exact (List.take_sublist limit values).length_le
  · intro lacking
    rw [List.length_take] at lacking
    exact known (by omega)

theorem offerProducts_eq (limit : Nat) (list : Capped γ) (combine : α → β → γ) (firsts : List α)
    (seconds : List β) :
    list.offerProducts limit combine firsts seconds = list.offer limit (pairs combine firsts seconds) := by
  simp only [Capped.offerProducts, Capped.offer, products_eq, length_pairs]

theorem Holds.offerProducts {limit : Nat} {blame : Prop} {list : Capped γ} {full : List γ}
    (holds : Holds limit blame list full) (combine : α → β → γ) {firsts : List α} {seconds : List β}
    (left : limit < firsts.length → blame) (right : limit < seconds.length → blame) :
    Holds limit blame
      (list.offerProducts limit combine (firsts.take limit) (seconds.take limit))
      (full ++ pairs combine firsts seconds) := by
  rw [offerProducts_eq]
  apply holds.offer
  · exact take_pairs combine firsts seconds (Nat.le_refl limit) (Nat.le_refl limit)
  · simp only [length_pairs, List.length_take]
    exact Nat.mul_le_mul (Nat.min_le_right _ _) (Nat.min_le_right _ _)
  · intro lacking
    by_cases many : limit < firsts.length
    · exact left many
    · by_cases long : limit < seconds.length
      · exact right long
      · rw [List.take_of_length_le (Nat.le_of_not_lt many),
          List.take_of_length_le (Nat.le_of_not_lt long)] at lacking
        exact absurd lacking (Nat.lt_irrefl _)

theorem take_flatMap_take (values : List α) (f : α → List β) {room limit : Nat} (few : room ≤ limit) :
    (values.flatMap fun value => (f value).take limit).take room = (values.flatMap f).take room := by
  induction values generalizing room with
  | nil => rfl
  | cons value values ih =>
    have rest := ih (show room - (f value).length ≤ limit by omega)
    have left : room - min limit (f value).length = room - (f value).length := by omega
    simp only [List.flatMap_cons, List.take_append, List.take_take, List.length_take,
      Nat.min_eq_left few, left, rest]

theorem holds_offer_flatMap (limit : Nat) (values : List α) (f : α → List β) :
    Holds limit (∃ value ∈ values, limit < (f value).length)
      (Capped.empty.offer limit (values.flatMap fun value => (f value).take limit))
      (values.flatMap f) := by
  rw [← List.nil_append (values.flatMap f)]
  apply (holds_empty limit _).offer
  · exact take_flatMap_take values f (Nat.le_refl limit)
  · apply List.Sublist.length_le
    exact List.Sublist.flatMap_right values fun value _ => List.take_sublist limit (f value)
  · intro lacking
    apply Classical.byContradiction
    intro short
    have same : (values.flatMap fun value => (f value).take limit) = values.flatMap f := by
      apply List.flatMap_congr
      intro value member
      exact List.take_of_length_le (Nat.le_of_not_lt fun excess => short ⟨value, member, excess⟩)
    rw [same] at lacking
    exact absurd lacking (Nat.lt_irrefl _)

theorem Holds.cross {limit : Nat} {blame : Prop} {list : Capped α} {full : List α}
    (holds : Holds limit blame list full) (combine : α → β → γ) {seconds : List β}
    (some : seconds ≠ []) (known : limit < seconds.length → blame) :
    Holds limit blame (list.cross limit combine (seconds.take limit)) (pairs combine full seconds) := by
  have one : 0 < seconds.length := List.length_pos_of_ne_nil some
  have wide : full.length ≤ full.length * seconds.length := Nat.le_mul_of_pos_right _ one
  simp only [Capped.cross, offerProducts_eq, Capped.offer, List.length_nil, Nat.sub_zero,
    List.nil_append, holds.values]
  refine ⟨?_, ?_, ?_⟩
  · exact take_pairs combine full seconds (Nat.le_refl limit) (Nat.le_refl limit)
  · simp only [Bool.or_eq_true, decide_eq_true_eq, length_pairs, List.length_take]
    intro more
    rcases more with cut | excess
    · have longer := holds.longer cut
      omega
    · have bound := Nat.mul_le_mul (Nat.min_le_right limit full.length)
        (Nat.min_le_right limit seconds.length)
      omega
  · intro more
    simp only [Bool.or_eq_true, decide_eq_true_eq]
    by_cases many : limit < full.length
    · exact (holds.noted many).imp Or.inl id
    · by_cases long : limit < seconds.length
      · exact Or.inr (known long)
      · rw [List.take_of_length_le (Nat.le_of_not_lt many),
          List.take_of_length_le (Nat.le_of_not_lt long)]
        exact Or.inl (Or.inr more)

end Capped

end Readings
