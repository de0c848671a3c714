import Readings.Proofs.FailureReports
import Readings.Proofs.SharedPrefixes
import Mathlib.Algebra.Order.BigOperators.Group.List
import Mathlib.Algebra.Order.Group.Nat

/-! The work of a construction. Every state that it passes through is grown from links with reasons, so no
set ever has more items than there are rules, dots and origins for it. The items of a set are processed
by their index while others are added behind them: each is processed once, and the last of them is reached
whatever the caps are, because there are only so many. -/

namespace Readings

open ChartState

def Grammar.starts (grammar : Grammar) : List (Item × Link) :=
  (grammar.rulesFor grammar.start).map fun rule => (Item.initial rule 0, Link.predicted)

section
variable (grammar : Grammar) (config : ChartConfig) (tokens : Array Token)

/-- The states in which a construction begins to close the set at a position. -/
inductive Begins : Nat → ChartState → Prop where
  | first {state : ChartState}
      (inserted : ChartState.initial.insertAll config 0 grammar.starts = .ok state) : Begins 0 state
  | next {position : Nat} {state closed : ChartState} (before : Begins position state)
      (closes : closeSet grammar config tokens position state = .ok closed)
      (inside : position < tokens.size) (more : position + 1 < closed.sets.size) :
      Begins (position + 1) closed

/-- The states that a construction passes through: after some of the links that it begins with, after some
items of a set, and after some of the links that the next item leads to. -/
inductive Passes : ChartState → Prop where
  | starting (count : Nat) :
      Passes (reached (ChartState.initial.insertAll config 0 (grammar.starts.take count)))
  | closing {position : Nat} {state : ChartState} (begun : Begins grammar config tokens position state)
      (count : Nat) : Passes (reached (closeFrom grammar config tokens position count 0 state))
  | processing {position index : Nat} {state middle : ChartState} {item : Item}
      (begun : Begins grammar config tokens position state)
      (before : closeFrom grammar config tokens position index 0 state = .ok middle)
      (found : (setAt middle.sets position).items[index]? = some item) (count : Nat) :
      Passes (reached (middle.insertAll config
        (additions grammar tokens middle position index item).1
        ((additions grammar tokens middle position index item).2.take count)))

/-- How the processing of a set goes on from an index, without a bound on the number of items: the items
processed, and the state left behind by the last of them. -/
inductive Works (position : Nat) :
    Nat → ChartState → List Item → Except (LimitHit × ChartState) ChartState → Prop where
  | done {index : Nat} {state : ChartState}
      (none : (setAt state.sets position).items[index]? = none) : Works position index state [] (.ok state)
  | stopped {index : Nat} {state : ChartState} {item : Item} {stop : LimitHit × ChartState}
      (found : (setAt state.sets position).items[index]? = some item)
      (stops : processItem grammar config tokens position index state item = .error stop) :
      Works position index state [item] (.error stop)
  | next {index : Nat} {state middle : ChartState} {item : Item} {items : List Item}
      {answer : Except (LimitHit × ChartState) ChartState}
      (found : (setAt state.sets position).items[index]? = some item)
      (processed : processItem grammar config tokens position index state item = .ok middle)
      (rest : Works position (index + 1) middle items answer) :
      Works position index state (item :: items) answer

structure ClosesOnce (position : Nat) (state : ChartState) (processed : List Item) : Prop where
  distinct : processed.Nodup
  few : processed.length ≤ itemBound grammar position
  works : Works grammar config tokens position 0 state processed
    (closeSet grammar config tokens position state)
  /-- With room for the items processed, more room changes nothing. -/
  unbounded : ∀ fuel, processed.length < fuel →
    closeFrom grammar config tokens position fuel 0 state = closeSet grammar config tokens position state
  all : (closeSet grammar config tokens position state).isOk = true →
    (setAt (Chart.build grammar config tokens).sets position).items = processed

structure Chart.IsBounded : Prop where
  kept : ∀ state, Passes grammar config tokens state → ∀ position,
    (setAt state.sets position).items.Nodup ∧
      (setAt state.sets position).items.length ≤ itemBound grammar position
  ended : ∃ state, Passes grammar config tokens state ∧
    (Chart.build grammar config tokens).sets = state.sets
  closes : ∀ position state, Begins grammar config tokens position state →
    ∃ processed, ClosesOnce grammar config tokens position state processed
  unlimited : itemBound grammar tokens.size ≤ config.maxItemsPerSet →
    ((List.range (tokens.size + 1)).map (itemBound grammar)).sum ≤ config.maxTotalItems →
    (Chart.build grammar config tokens).isLimitExceeded = false

end

variable {grammar : Grammar} {config : ChartConfig} {tokens : Array Token}

section Grown

theorem Begins.grown {position : Nat} {state : ChartState}
    (begun : Begins grammar config tokens position state) : Grown grammar tokens state := by
  induction begun with
  | first inserted =>
    have grown : Grown grammar tokens (reached (ChartState.initial.insertAll config 0 grammar.starts)) :=
      Grown.initial.after_insertAll config (justified_starts grammar tokens)
    rwa [inserted] at grown
  | @next position state closed before closes inside more ih =>
    have grown : Grown grammar tokens (reached (closeSet grammar config tokens position state)) :=
      ih.after_closeFrom config position (itemBound grammar position + 1) 0
    rwa [closes] at grown

theorem Passes.grown {state : ChartState} (passed : Passes grammar config tokens state) :
    Grown grammar tokens state := by
  cases passed with
  | starting count =>
    exact Grown.initial.after_insertAll config fun entry member =>
      justified_starts grammar tokens entry (List.mem_of_mem_take member)
  | closing begun count => exact begun.grown.after_closeFrom config _ count 0
  | @processing position index state middle item begun before found count =>
    have grown : Grown grammar tokens
        (reached (closeFrom grammar config tokens position index 0 state)) :=
      begun.grown.after_closeFrom config position index 0
    rw [before] at grown
    exact grown.after_insertAll config fun entry member =>
      justified_additions grown _ (List.mem_of_getElem? found) entry (List.mem_of_mem_take member)

end Grown

section Works

variable {position index : Nat} {state middle : ChartState} {item : Item} {processed : List Item}
  {answer : Except (LimitHit × ChartState) ChartState}

theorem items_processItem (grammar : Grammar) (config : ChartConfig) (tokens : Array Token)
    (position index : Nat) (state : ChartState) (item : Item) (other : Nat) :
    (setAt state.sets other).items <+:
      (setAt (reached (processItem grammar config tokens position index state item)).sets other).items := by
  obtain ⟨added, -, ended⟩ := reached_processItem grammar config tokens position index state item
  rw [ended]
  exact items_putAll _ _ _ _

theorem take_processItem (found : (setAt state.sets position).items[index]? = some item)
    (done : processItem grammar config tokens position index state item = .ok middle) :
    index + 1 ≤ (setAt middle.sets position).items.length ∧
      (setAt middle.sets position).items.take (index + 1) =
        (setAt state.sets position).items.take index ++ [item] := by
  have grows := items_processItem grammar config tokens position index state item position
  rw [done] at grows
  obtain ⟨more, same⟩ := grows
  have inside := (List.getElem?_eq_some_iff.mp found).1
  simp only [reached] at same
  rw [← same, List.take_append_of_le_length inside, List.take_add_one, found, List.length_append]
  exact ⟨Nat.le_trans inside (Nat.le_add_right _ _), rfl⟩

/-- Each step reaches one item more, of no more than there are. -/
theorem exists_works {fuel : Nat} (grown : Grown grammar tokens state)
    (inside : index ≤ (setAt state.sets position).items.length)
    (enough : itemBound grammar position < fuel + index) :
    ∃ processed, Works grammar config tokens position index state processed
      (closeFrom grammar config tokens position fuel index state) := by
  induction fuel generalizing index state with
  | zero =>
    have bound := grown.sound.length_le position
    omega
  | succ fuel ih =>
    rw [closeFrom_succ]
    split
    next none => exact ⟨[], .done none⟩
    next item found =>
      have onward : Grown grammar tokens
          (reached (processItem grammar config tokens position index state item)) :=
        (processItem_spec config grown (List.mem_of_getElem? found)).1
      split
      next stop stops => exact ⟨[item], .stopped found stops⟩
      next middle done =>
        rw [done] at onward
        obtain ⟨processed, works⟩ := ih onward (take_processItem found done).1 (by omega)
        exact ⟨item :: processed, .next found done works⟩

/-- The work ends the same way however many more items are allowed. -/
theorem Works.closeFrom_eq (works : Works grammar config tokens position index state processed answer)
    {fuel : Nat} (enough : processed.length < fuel) :
    closeFrom grammar config tokens position fuel index state = answer := by
  induction works generalizing fuel with
  | done none =>
    obtain ⟨fuel, rfl⟩ := Nat.exists_eq_add_one.mpr (Nat.zero_lt_of_lt enough)
    rw [closeFrom_succ, none]
  | stopped found stops =>
    obtain ⟨fuel, rfl⟩ := Nat.exists_eq_add_one.mpr (Nat.zero_lt_of_lt enough)
    simp only [closeFrom_succ, found, stops]
  | next found done rest ih =>
    obtain ⟨fuel, rfl⟩ := Nat.exists_eq_add_one.mpr (Nat.zero_lt_of_lt enough)
    simp only [closeFrom_succ, found, done]
    exact ih (Nat.lt_of_succ_lt_succ enough)

/-- What is processed are the items of the set in their order, and when the work is done, all of them. -/
theorem Works.processed_prefix (works : Works grammar config tokens position index state processed answer) :
    (setAt state.sets position).items.take index ++ processed <+:
        (setAt (reached answer).sets position).items ∧
      (answer.isOk = true → (setAt (reached answer).sets position).items =
        (setAt state.sets position).items.take index ++ processed) := by
  induction works with
  | @done index state none =>
    have whole := List.take_of_length_le (List.getElem?_eq_none_iff.mp none)
    rw [whole, List.append_nil]
    exact ⟨List.prefix_rfl, fun _ => rfl⟩
  | @stopped index state item stop found stops =>
    have grows := items_processItem grammar config tokens position index state item position
    have taken := List.take_add_one (l := (setAt state.sets position).items) (i := index)
    rw [found, Option.toList_some] at taken
    rw [stops] at grows
    rw [← taken]
    exact ⟨(List.take_prefix _ _).trans grows, nofun⟩
  | next found done rest ih =>
    rw [(take_processItem found done).2, List.append_assoc, List.singleton_append] at ih
    exact ih

end Works

section Fill

theorem Chart.construct_eq (grammar : Grammar) (config : ChartConfig) (tokens : Array Token) :
    Chart.construct grammar config tokens =
      conclude (fillFrom grammar config tokens 0 tokens.size)
        (ChartState.initial.insertAll config 0 grammar.starts) := rfl

theorem Begins.construct_eq {position : Nat} {state : ChartState}
    (begun : Begins grammar config tokens position state) :
    position ≤ tokens.size ∧ Chart.construct grammar config tokens =
      fillFrom grammar config tokens position (tokens.size - position) state := by
  induction begun with
  | first inserted => exact ⟨Nat.zero_le _, by rw [Chart.construct_eq, inserted]; rfl⟩
  | @next position state closed before closes inside more ih =>
    obtain ⟨left, rest⟩ := Nat.exists_eq_add_of_lt inside
    refine ⟨inside, ?_⟩
    rw [ih.2, fillFrom_eq, closes, show tokens.size - position = left + 1 by omega,
      show tokens.size - (position + 1) = left by omega, conclude, proceed, if_neg (Nat.not_le.mpr more)]

/-- The set that was closed is the one that the chart has. -/
theorem Begins.setAt_build {position : Nat} {state closed : ChartState}
    (begun : Begins grammar config tokens position state)
    (closes : closeSet grammar config tokens position state = .ok closed) :
    setAt (Chart.build grammar config tokens).sets position = setAt closed.sets position := by
  have same := sameUpTo_proceed grammar config tokens position (tokens.size - position) closed
  rw [Chart.build_eq, begun.construct_eq.2, fillFrom_eq, closes]
  exact (same.setAt_eq (Nat.le_refl position)).symm

theorem Begins.passes_fillFrom {position left : Nat} {state : ChartState}
    (begun : Begins grammar config tokens position state) (rest : position + left = tokens.size) :
    Passes grammar config tokens (fillFrom grammar config tokens position left state).1 := by
  induction left generalizing position state with
  | zero =>
    have passed := Passes.closing begun (itemBound grammar position + 1)
    rw [fillFrom_eq, closeSet]
    generalize closeFrom grammar config tokens position _ 0 state = answer at passed
    cases answer with
    | error stop => exact passed
    | ok closed =>
      rw [conclude, proceed]
      split <;> exact passed
  | succ left ih =>
    have passed := Passes.closing begun (itemBound grammar position + 1)
    rw [fillFrom_eq]
    cases closes : closeSet grammar config tokens position state with
    | error stop =>
      rw [← closeSet, closes] at passed
      exact passed
    | ok closed =>
      rw [conclude, proceed]
      split
      next stalled =>
        rw [← closeSet, closes] at passed
        exact passed
      next further =>
        exact ih (.next begun closes (by omega) (Nat.lt_of_not_le further)) (by omega)

theorem passes_construct (grammar : Grammar) (config : ChartConfig) (tokens : Array Token) :
    Passes grammar config tokens (Chart.construct grammar config tokens).1 := by
  rw [Chart.construct_eq]
  cases inserted : ChartState.initial.insertAll config 0 grammar.starts with
  | error stop =>
    have passed : Passes grammar config tokens
        (reached (ChartState.initial.insertAll config 0 (grammar.starts.take grammar.starts.length))) :=
      .starting grammar.starts.length
    rw [List.take_length, inserted] at passed
    exact passed
  | ok state => exact (Begins.first inserted).passes_fillFrom (Nat.zero_add _)

theorem Begins.exists_closesOnce {position : Nat} {state : ChartState}
    (begun : Begins grammar config tokens position state) :
    ∃ processed, ClosesOnce grammar config tokens position state processed := by
  obtain ⟨processed, works⟩ : ∃ processed, Works grammar config tokens position 0 state processed
      (closeSet grammar config tokens position state) :=
    exists_works begun.grown (Nat.zero_le _) (Nat.lt_succ_self _)
  have closed : Grown grammar tokens (reached (closeSet grammar config tokens position state)) :=
    begun.grown.after_closeFrom config position (itemBound grammar position + 1) 0
  obtain ⟨first, all⟩ := works.processed_prefix
  rw [List.take_zero, List.nil_append] at first all
  refine ⟨processed, first.sublist.nodup (closed.sound.distinct position),
    Nat.le_trans first.length_le (closed.sound.length_le position), works,
    fun fuel enough => works.closeFrom_eq enough, fun ok => ?_⟩
  cases closes : closeSet grammar config tokens position state with
  | error stop =>
    rw [closes] at ok
    cases ok
  | ok result =>
    rw [closes] at all
    rw [begun.setAt_build closes]
    exact all rfl

end Fill

section Caps

theorem itemBound_mono (grammar : Grammar) {position later : Nat} (before : position ≤ later) :
    itemBound grammar position ≤ itemBound grammar later :=
  Nat.mul_le_mul_right _ (Nat.succ_le_succ before)

theorem toList_sets (sets : Array ChartSet) : sets.toList = (List.range sets.size).map (setAt sets) := by
  refine List.ext_getElem (by simp) fun position inside _ => ?_
  have here : position < sets.size := inside
  simp [setAt, here]

variable {state : ChartState}

theorem Grown.size_le (grown : Grown grammar tokens state) : state.sets.size ≤ tokens.size + 1 := by
  by_contra more
  exact grown.inhabited (tokens.size + 1) (Nat.succ_pos _) (by omega)
    (grown.sound.items_outside (Nat.lt_succ_self _))

theorem Grown.size_setAt_le (grown : Grown grammar tokens state) (position : Nat) :
    (setAt state.sets position).size ≤ itemBound grammar tokens.size := by
  by_cases inside : position ≤ tokens.size
  · rw [← ChartSet.length_items]
    exact Nat.le_trans (grown.sound.length_le position) (itemBound_mono grammar inside)
  · rw [← ChartSet.length_items, grown.sound.items_outside (Nat.lt_of_not_le inside)]
    exact Nat.zero_le _

theorem Grown.itemCount_le (grown : Grown grammar tokens state) :
    itemCount state.sets ≤ ((List.range (tokens.size + 1)).map (itemBound grammar)).sum := by
  have each : ∀ position ∈ List.range state.sets.size,
      (ChartSet.size ∘ setAt state.sets) position ≤ itemBound grammar position := by
    intro position _
    rw [Function.comp_apply, ← ChartSet.length_items]
    exact grown.sound.length_le position
  calc itemCount state.sets
      = ((List.range state.sets.size).map (ChartSet.size ∘ setAt state.sets)).sum := by
        rw [itemCount, toList_sets, List.map_map]
    _ ≤ ((List.range state.sets.size).map (itemBound grammar)).sum := List.sum_le_sum each
    _ ≤ ((List.range (tokens.size + 1)).map (itemBound grammar)).sum :=
        (((List.range_sublist).mpr grown.size_le).map _).sum_le_sum fun _ _ => Nat.zero_le _

/-- Caps that leave room for all items there are cannot be passed. -/
theorem Chart.not_isLimitExceeded (sets : itemBound grammar tokens.size ≤ config.maxItemsPerSet)
    (total : ((List.range (tokens.size + 1)).map (itemBound grammar)).sum ≤ config.maxTotalItems) :
    (Chart.build grammar config tokens).isLimitExceeded = false := by
  have grown := (passes_construct grammar config tokens).grown
  have kept : (Chart.build grammar config tokens).sets =
      (Chart.construct grammar config tokens).1.sets := by
    rw [Chart.build_eq]
  have count : (Chart.build grammar config tokens).totalItems =
      itemCount (Chart.construct grammar config tokens).1.sets := by
    rw [← kept, Chart.totalItems, itemCount, List.sum_eq_foldr]
  rw [Bool.eq_false_iff, ne_eq, Chart.isLimitExceeded_iff]
  rintro ⟨hit, stopped⟩
  obtain ⟨byOne, cap⟩ :=
    (Chart.build_isCapped ⟨Nat.le_refl _, Nat.le_refl _⟩ grammar tokens).byOne hit stopped
  rcases cap with ⟨limit, set, found, size⟩ | ⟨limit, size⟩
  · have bound := grown.size_setAt_le hit.position
    rw [← kept, setAt, Array.getD_eq_getD_getElem?, found, Option.getD_some] at bound
    omega
  · have bound := grown.itemCount_le
    omega

end Caps

/-- Each set of a construction stays within the number of items there are for it, without any twice. Its
closing ends when each of them is processed once, and caps as large as these numbers are never passed. -/
theorem worklist_bounded (grammar : Grammar) (config : ChartConfig) (tokens : Array Token) :
    Chart.IsBounded grammar config tokens where
  kept state passed position :=
    ⟨passed.grown.sound.distinct position, passed.grown.sound.length_le position⟩
  ended := ⟨_, passes_construct grammar config tokens, by rw [Chart.build_eq]⟩
  closes _ _ begun := begun.exists_closesOnce
  unlimited := Chart.not_isLimitExceeded

def sumsRoom : ChartConfig := { maxItemsPerSet := 48, maxTotalItems := 168 }

theorem threeOnes_bounded : (Chart.build sums sumsRoom threeOnes).isLimitExceeded = false :=
  (worklist_bounded sums sumsRoom threeOnes).unlimited (by decide +kernel) (by decide +kernel)

end Readings
