import Readings.Diagnosis.ParseError
import Readings.Proofs.Repetitions
import Readings.Proofs.ViablePrefixes
import Mathlib.Data.Prod.Lex
import Mathlib.Data.String.Basic

/-! Failure reports are exact. A parse that fails stops at the first position that no form of the start
symbol gets beyond, and expects there what some form goes on with. The set at that position holds an
item, since no set is begun without one; so the tokens in front of it do begin a form. -/

namespace Readings

variable {grammar : Grammar} {tokens : Array Token}

theorem Terminal.le_iff {first second : Terminal} :
    first.le second = true ↔ toLex first.rank ≤ toLex second.rank := by
  simp [Terminal.le, Prod.Lex.le_iff]

theorem Terminal.rank_injective : Function.Injective fun terminal : Terminal => toLex terminal.rank := by
  intro first second same
  cases first <;> cases second <;> simp_all [Terminal.rank]

theorem mem_expectedIn {set : ChartSet} {terminal : Terminal} :
    terminal ∈ expectedIn grammar set ↔
      ∃ item ∈ set.items, item.next? grammar = some (.terminal terminal) := by
  simp only [expectedIn, mem_eraseReps, List.mem_mergeSort, List.mem_filterMap]
  constructor
  · intro awaited
    obtain ⟨item, member, next⟩ := awaited
    split at next
    next other found =>
      cases next
      exact ⟨item, member, found⟩
    next => cases next
  · intro awaited
    obtain ⟨item, member, next⟩ := awaited
    exact ⟨item, member, by simp only [next]⟩

theorem ascending_expectedIn (grammar : Grammar) (set : ChartSet) :
    (expectedIn grammar set).Pairwise fun first second => toLex first.rank < toLex second.rank := by
  apply ascending_eraseReps Terminal.rank_injective
  refine (List.pairwise_mergeSort ?_ ?_ _).imp fun ordered => Terminal.le_iff.mp ordered
  · intro first second third before behind
    rw [Terminal.le_iff] at before behind ⊢
    exact le_trans before behind
  · intro first second
    rw [Bool.or_eq_true, Terminal.le_iff, Terminal.le_iff]
    exact le_total _ _

private theorem size_put (position : Nat) (state : ChartState) (entry : Item × Link) :
    (state.put position entry).sets.size = max state.sets.size (position + 1) := by
  rw [← ChartState.size_reach]
  simp [ChartState.put]

private theorem Justified.source {sets : Array ChartSet} {position : Nat} {item : Item} {link : Link}
    (reason : Justified grammar tokens sets position item link) :
    position = 0 ∨ (setAt sets (position - 1)).items ≠ [] ∨ (setAt sets position).items ≠ [] := by
  cases reason with
  | predicted known wanted =>
    rcases wanted with ⟨rfl, -⟩ | ⟨waiter, waiting, -⟩
    · exact Or.inl rfl
    · exact Or.inr (Or.inr (List.ne_nil_of_mem waiting))
  | scanned before next found accepted =>
    exact Or.inr (Or.inl (List.ne_nil_of_mem before))
  | completed waiting next known done => exact Or.inr (Or.inr (List.ne_nil_of_mem done))

theorem Grown.inhabited {state : ChartState} (grown : Grown grammar tokens state) :
    ∀ position, 0 < position → position < state.sets.size →
      (setAt state.sets position).items ≠ [] := by
  induction grown with
  | initial =>
    intro position later inside
    have size : ChartState.initial.sets.size = 1 := rfl
    omega
  | @put state position entry before reason ih =>
    intro other later inside
    rw [size_put] at inside
    rw [ChartState.setAt_put]
    split
    next =>
      exact List.ne_nil_of_mem (ChartSet.mem_items_insert.mpr (Or.inr rfl))
    next different =>
      have reached : position ≤ state.sets.size := by
        rcases reason.source with rfl | early | here
        · exact Nat.zero_le _
        · have := lt_size_of_items early
          omega
        · exact Nat.le_of_lt (lt_size_of_items here)
      exact ih other later (by omega)

private theorem size_putAll (position : Nat) (state : ChartState) (entries : List (Item × Link)) :
    state.sets.size ≤ (entries.foldl (ChartState.put position) state).sets.size := by
  induction entries generalizing state with
  | nil => exact Nat.le_refl _
  | cons entry entries ih =>
    have first := size_put position state entry
    have rest := ih (state.put position entry)
    simp only [List.foldl_cons]
    omega

private theorem size_closeFrom {config : ChartConfig} {position fuel index : Nat}
    {state result : ChartState}
    (closed : closeFrom grammar config tokens position fuel index state = .ok result) :
    state.sets.size ≤ result.sets.size := by
  have grows : state.sets.size ≤
      (ChartState.reached (closeFrom grammar config tokens position fuel index state)).sets.size := by
    refine closeFrom_preserves (motive := fun middle => state.sets.size ≤ middle.sets.size)
      (fun index middle item _ before => ?_) fuel index (Nat.le_refl _)
    obtain ⟨added, -, ended⟩ := reached_processItem grammar config tokens position index middle item
    rw [ended]
    exact Nat.le_trans before (size_putAll _ middle added)
  rwa [closed] at grows

private theorem stall_fillFrom {config : ChartConfig} {position left stall : Nat} {state : ChartState}
    {expected : List Terminal} (begun : position = 0 ∨ position < state.sets.size)
    (failed : (fillFrom grammar config tokens position left state).2 = .failed stall expected) :
    stall = 0 ∨ stall < (fillFrom grammar config tokens position left state).1.sets.size := by
  induction left generalizing position state with
  | zero =>
    rw [fillFrom] at failed ⊢
    cases closed : closeSet grammar config tokens position state with
    | error stop => simp [closed] at failed
    | ok result =>
      have grows := size_closeFrom closed
      simp only [closed] at failed ⊢
      split at failed
      next => cases failed
      next rejected =>
        cases failed
        simp only [rejected]
        exact begun.imp id fun inside => Nat.lt_of_lt_of_le inside grows
  | succ left ih =>
    rw [fillFrom] at failed ⊢
    cases closed : closeSet grammar config tokens position state with
    | error stop => simp [closed] at failed
    | ok result =>
      have grows := size_closeFrom closed
      simp only [closed] at failed ⊢
      by_cases stalled : result.sets.size ≤ position + 1
      · simp only [stalled, ite_true] at failed ⊢
        cases failed
        exact begun.imp id fun inside => Nat.lt_of_lt_of_le inside grows
      · simp only [stalled, ite_false] at failed ⊢
        exact ih (Or.inr (Nat.not_le.mp stalled)) failed

private theorem stall_build {config : ChartConfig} {stall : Nat} {expected : List Terminal}
    (failed : (Chart.build grammar config tokens).outcome = .failed stall expected) :
    stall = 0 ∨ stall < (Chart.build grammar config tokens).sets.size := by
  simp only [Chart.build] at failed ⊢
  cases begun : ChartState.initial.insertAll config 0 ((grammar.rulesFor grammar.start).map
      fun rule => (Item.initial rule 0, Link.predicted)) with
  | error stop => simp [begun] at failed
  | ok state =>
    simp only [begun] at failed ⊢
    exact stall_fillFrom (Or.inl rfl) failed

/-- What it means for a report of a failure to be right about the tokens. -/
structure ReportsFailure (grammar : Grammar) (tokens : Array Token) (position : Nat)
    (expected : List Terminal) : Prop where
  inside : position ≤ tokens.size
  /-- Some form of the start symbol has all tokens in front of the position. -/
  reached : grammar.Reaches tokens position
  /-- None has one token more. -/
  stalled : position < tokens.size → ¬ grammar.Reaches tokens (position + 1)
  unread : position = tokens.size → ¬ ∃ tree, IsTreeOf grammar tokens tree
  ascending : expected.Pairwise fun first second => toLex first.rank < toLex second.rank
  exact : ∀ terminal, terminal ∈ expected ↔ grammar.GoesOn tokens position terminal

private theorem Saturated.stalls {state : ChartState} (grown : Grown grammar tokens state)
    (saturated : Saturated grammar tokens state.sets) {position : Nat}
    (empty : (setAt state.sets (position + 1)).items = []) :
    ¬ grammar.Reaches tokens (position + 1) := by
  intro reached
  obtain ⟨elements, back, formed, spelled⟩ := reached
  obtain ⟨front, terminal, token, rfl, before, found, accepted⟩ := spelled.exists_last
  rw [List.append_assoc, List.singleton_append] at formed
  obtain ⟨item, member, next⟩ := (saturated.awaits_iff grown).mpr ⟨front, back, formed, before⟩
  have scanned := (saturated.closed position).scans item member terminal token next found accepted
  have moved := ChartSet.mem_items_of_link scanned
  rw [empty] at moved
  exact List.not_mem_nil moved

private theorem Grown.reaches {state : ChartState} (grown : Grown grammar tokens state) {position : Nat}
    (begun : position = 0 ∨ position < state.sets.size) : grammar.Reaches tokens position := by
  rcases Nat.eq_zero_or_pos position with rfl | later
  · exact ⟨[], [.nonTerminal grammar.start], RewritesTo.refl _, .nil⟩
  · have inside := begun.resolve_left (Nat.ne_of_gt later)
    obtain ⟨item, member⟩ := List.exists_mem_of_ne_nil _ (grown.inhabited position later inside)
    obtain ⟨front, back, formed, spelled⟩ := grown.viable position item member
    rw [List.append_assoc] at formed
    exact ⟨front, _, formed, spelled⟩

theorem Verdict.reports {state : ChartState} (grown : Grown grammar tokens state)
    (saturated : Saturated grammar tokens state.sets) {position : Nat} {expected : List Terminal}
    (verdict : Verdict grammar tokens state.sets (.failed position expected))
    (begun : position = 0 ∨ position < state.sets.size) :
    ReportsFailure grammar tokens position expected := by
  have unread : ¬ ∃ tree, IsTreeOf grammar tokens tree := by
    rw [← exists_reading_iff, ← verdict.success_iff saturated]
    exact nofun
  have exact : ∀ terminal, terminal ∈ expectedIn grammar (setAt state.sets position) ↔
      grammar.GoesOn tokens position terminal := by
    intro terminal
    rw [mem_expectedIn]
    exact saturated.awaits_iff grown
  have reached := grown.reaches begun
  cases verdict with
  | stalled early empty =>
    exact ⟨Nat.le_of_lt early, reached, fun _ => saturated.stalls grown (empty _ (Nat.lt_succ_self _)),
      fun last => absurd last (Nat.ne_of_lt early), ascending_expectedIn _ _, exact⟩
  | unfinished none =>
    exact ⟨Nat.le_refl _, reached, fun early => absurd early (Nat.lt_irrefl _), fun _ => unread,
      ascending_expectedIn _ _, exact⟩

/-- A failed parse reports where the tokens stop to begin any form, and what could have gone on there. -/
theorem failure_exact (grammar : Grammar) (config : ChartConfig) (tokens : Array Token)
    {position : Nat} {expected : List Terminal}
    (failed : (Chart.build grammar config tokens).outcome = .failed position expected) :
    ReportsFailure grammar tokens position expected ∧
      (∀ token, tokens[position]? = some token →
        (Chart.build grammar config tokens).error? tokens =
          some (.unexpectedToken token.span position token.text (expected.map Terminal.render))) ∧
      (position = tokens.size →
        (Chart.build grammar config tokens).error? tokens =
          some (.unexpectedEnd (.empty ((tokens.back?.map fun token => token.span.stop).getD 0)) position
            (expected.map Terminal.render))) := by
  refine ⟨?_, ?_, ?_⟩
  · obtain ⟨result, settles, sets, outcome⟩ := build_settles grammar config tokens
    have begun := stall_build failed
    rw [sets] at begun
    rw [outcome] at failed
    rcases settles.settled with ⟨hit, stopped⟩ | ⟨saturated, verdict⟩
    · rw [stopped] at failed
      cases failed
    · rw [failed] at verdict
      exact verdict.reports settles.grown saturated begun
  · intro token found
    simp only [Chart.error?, failed, found]
  · intro last
    have behind : tokens[position]? = none := by simp [last]
    simp only [Chart.error?, failed, behind]

def twoPluses : Array Token := #["one", "plus", "plus"].map fun kind =>
  { text := kind, kind, tags := [], span := .empty 0, merged := false }

theorem twoPluses_reported :
    (Chart.build sums {} twoPluses).outcome = .failed 2 [.kind "one"] ∧
      ReportsFailure sums twoPluses 2 [.kind "one"] ∧
      (Chart.build sums {} twoPluses).error? twoPluses =
        some (.unexpectedToken (.empty 0) 2 "plus" ["<one>"]) := by
  have failed : (Chart.build sums {} twoPluses).outcome = .failed 2 [.kind "one"] := by
    decide +kernel
  obtain ⟨report, error, -⟩ := failure_exact sums {} twoPluses failed
  exact ⟨failed, report, error ⟨"plus", "plus", [], .empty 0, false⟩ (by decide +kernel)⟩

end Readings
