import Mathlib.Data.List.Forall2

/-! Requests that are answered, and passes over lists in which all of them are. -/

namespace Readings

variable {α β σ ε : Type}

theorem bind_eq_ok_iff {first : Except ε α} {rest : α → Except ε β} {result : β} :
    first >>= rest = .ok result ↔ ∃ value, first = .ok value ∧ rest value = .ok result := by
  cases first with
  | error cause => simp [bind, Except.bind]
  | ok value => simp [bind, Except.bind]

theorem mapM_ok {f : α → Except ε β} (g : α → β) {values : List α}
    (answers : ∀ value ∈ values, f value = .ok (g value)) : values.mapM f = .ok (values.map g) := by
  induction values with
  | nil => rfl
  | cons value values ih =>
    simp only [List.forall_mem_cons] at answers
    simp only [List.mapM_cons, answers.1, ih answers.2]
    rfl

theorem exists_mapM_ok {f : α → Except ε β} {values : List α}
    (answers : ∀ value ∈ values, ∃ answer, f value = .ok answer) :
    ∃ results, values.mapM f = .ok results := by
  induction values with
  | nil => exact ⟨[], rfl⟩
  | cons value values ih =>
    simp only [List.forall_mem_cons] at answers
    obtain ⟨answer, first⟩ := answers.1
    obtain ⟨results, rest⟩ := ih answers.2
    refine ⟨answer :: results, ?_⟩
    simp only [List.mapM_cons, first, rest]
    rfl

/-- The results of a pass are the answers, one for each request. -/
theorem forall₂_of_mapM_ok {f : α → Except ε β} {values : List α} {results : List β}
    (answered : values.mapM f = .ok results) :
    List.Forall₂ (fun value result => f value = .ok result) values results := by
  induction values generalizing results with
  | nil =>
    cases answered
    exact .nil
  | cons value values ih =>
    simp only [List.mapM_cons, bind_eq_ok_iff] at answered
    obtain ⟨result, first, more, rest, answered⟩ := answered
    cases answered
    exact .cons first (ih rest)

theorem mem_of_mapM_ok {f : α → Except ε β} {values : List α} {results : List β}
    (answered : values.mapM f = .ok results) {result : β} :
    result ∈ results ↔ ∃ value ∈ values, f value = .ok result := by
  have each := forall₂_of_mapM_ok answered
  clear answered
  induction each with
  | nil => simp
  | cons first _ ih => simp [first, ih, eq_comm]

theorem answered_of_mapM_ok {f : α → Except ε β} {values : List α} {results : List β}
    (answered : values.mapM f = .ok results) {value : α} (member : value ∈ values) :
    ∃ result, f value = .ok result := by
  obtain ⟨index, inside, rfl⟩ := List.getElem_of_mem member
  have each := forall₂_of_mapM_ok answered
  exact ⟨_, each.get inside (each.length_eq ▸ inside)⟩

theorem foldlM_ok {f : σ → α → Except ε σ} (g : σ → α → σ) {values : List α} {state : σ}
    (answers : ∀ value ∈ values, ∀ state, f state value = .ok (g state value)) :
    values.foldlM f state = .ok (values.foldl g state) := by
  induction values generalizing state with
  | nil => rfl
  | cons value values ih =>
    simp only [List.forall_mem_cons] at answers
    simp only [List.foldlM_cons, answers.1]
    exact ih answers.2

end Readings
