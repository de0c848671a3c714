import Readings.Proofs.CappedCharts
import Readings.Proofs.SeenTokens

/-! What two parses share. Closing a set reads the sets up to it and only tokens in front of the next one,
and what the last of these leads to goes into the next set. So two parses whose tokens look alike up to a
position build the same sets up to there, link by link, whatever stands behind it. -/

namespace Readings

open ChartState

/-- Two rows have the same set at every position up to a bound, or none. -/
def SameUpTo (bound : Nat) (sets others : Array ChartSet) : Prop :=
  ∀ position ≤ bound, sets[position]? = others[position]?

variable {grammar : Grammar} {config : ChartConfig} {tokens others : Array Token} {bound position : Nat}
  {state other : ChartState}

namespace SameUpTo

variable {sets rest last : Array ChartSet}

theorem refl (sets : Array ChartSet) : SameUpTo bound sets sets := fun _ _ => rfl

theorem symm (same : SameUpTo bound sets rest) : SameUpTo bound rest sets :=
  fun position inside => (same position inside).symm

theorem trans (first : SameUpTo bound sets rest) (second : SameUpTo bound rest last) :
    SameUpTo bound sets last :=
  fun position inside => (first position inside).trans (second position inside)

theorem setAt_eq (same : SameUpTo bound sets rest) (inside : position ≤ bound) :
    setAt sets position = setAt rest position := by
  simp only [setAt, Array.getD_eq_getD_getElem?, same position inside]

theorem size_le_iff (same : SameUpTo bound sets rest) (inside : position ≤ bound) :
    sets.size ≤ position ↔ rest.size ≤ position := by
  rw [← Array.getElem?_eq_none_iff, ← Array.getElem?_eq_none_iff, same position inside]

theorem begun (same : SameUpTo bound sets rest) (begun : bound < sets.size) : bound < rest.size := by
  rw [← Nat.not_le, ← same.size_le_iff (Nat.le_refl bound)]
  exact Nat.not_le.mpr begun

theorem past_eq (same : SameUpTo bound state.sets other.sets) {origin : Nat} (inside : origin ≤ bound)
    (position index : Nat) : state.past position index origin = other.past position index origin := by
  simp only [ChartState.past_eq, same.setAt_eq inside]

theorem putAll (same : SameUpTo bound state.sets other.sets) (inside : position ≤ bound)
    (entries : List (Item × Link)) :
    SameUpTo bound (entries.foldl (put position) state).sets
      (entries.foldl (put position) other).sets := by
  induction entries generalizing state other with
  | nil => exact same
  | cons entry entries ih =>
    apply ih
    intro earlier before
    simp only [getElem?_put, same.setAt_eq inside, same earlier before]

/-- Links behind the bound change nothing up to it, as the sets up to it are begun. -/
theorem putAll_behind (begun : bound < state.sets.size) (behind : bound < position)
    (entries : List (Item × Link)) :
    SameUpTo bound state.sets (entries.foldl (put position) state).sets := by
  induction entries generalizing state with
  | nil => exact refl _
  | cons entry entries ih =>
    have first : SameUpTo bound state.sets (state.put position entry).sets := by
      intro earlier before
      have there : earlier < state.sets.size := Nat.lt_of_le_of_lt before begun
      rw [getElem?_put, if_neg (by omega), Array.getElem?_eq_getElem there, Option.some_or]
    exact first.trans (ih (first.begun begun))

end SameUpTo

section Closing

theorem SameUpTo.after_process (grammar : Grammar) (same : SameUpTo bound state.sets other.sets)
    (alike : AlikeUpTo bound tokens others) (inside : position ≤ bound) {item : Item}
    (member : item ∈ (setAt state.sets position).items) (ordered : item.origin ≤ position) (index : Nat) :
    SameUpTo bound (state.process grammar tokens position index item).sets
      (other.process grammar others position index item).sets := by
  cases next : item.next? grammar with
  | none =>
    have past := same.past_eq (Nat.le_trans ordered inside) position index
    simp only [process, additions_complete next, completions, past]
    exact same.putAll inside _
  | some element =>
    cases element with
    | nonTerminal symbol =>
      have past := same.past_eq inside position index
      simp only [process, additions_nonTerminal next, predictions, past]
      exact same.putAll inside _
    | terminal terminal =>
      simp only [process, additions_terminal next]
      rcases Nat.lt_or_eq_of_le inside with before | rfl
      · have scanned : scans tokens position item terminal = scans others position item terminal := by
          rw [scans_eq, scans_eq, alike position before]
        rw [scanned]
        exact same.putAll before _
      · -- The tokens at the bound may differ, but what they lead to lies behind it.
        have begun : position < state.sets.size := lt_size_of_items (List.ne_nil_of_mem member)
        have behind := Nat.lt_succ_self position
        have own := SameUpTo.putAll_behind begun behind (scans tokens position item terminal)
        have rest := SameUpTo.putAll_behind (same.begun begun) behind
          (scans others position item terminal)
        exact own.symm.trans (same.trans rest)

/-- Both parses process the same items of a set, one after the other. -/
theorem SameUpTo.after_closeFrom {fuel index : Nat} {result answer : ChartState}
    (same : SameUpTo bound state.sets other.sets) (alike : AlikeUpTo bound tokens others)
    (inside : position ≤ bound) (grown : Grown grammar tokens state)
    (first : closeFrom grammar config tokens position fuel index state = .ok result)
    (second : closeFrom grammar config others position fuel index other = .ok answer) :
    Grown grammar tokens result ∧ SameUpTo bound result.sets answer.sets := by
  induction fuel generalizing index state other with
  | zero =>
    cases first
    cases second
    exact ⟨grown, same⟩
  | succ fuel ih =>
    have here := same.setAt_eq inside
    rw [closeFrom_succ] at first second
    rw [← here] at second
    cases found : (setAt state.sets position).items[index]? with
    | none =>
      rw [found] at first second
      cases first
      cases second
      exact ⟨grown, same⟩
    | some item =>
      rw [found] at first second
      dsimp only at first second
      split at first
      next => cases first
      next middle processed =>
        split at second
        next => cases second
        next between followed =>
          have member := List.mem_of_getElem? found
          have ordered := (grown.sound.grounded position _ member).ordered
          have onward : Grown grammar tokens
              (reached (processItem grammar config tokens position index state item)) :=
            (processItem_spec config grown member).1
          have next := same.after_process grammar alike inside member ordered index
          rw [processed] at onward
          rw [← processItem_ok processed, ← processItem_ok followed] at next
          exact ih next onward first second

end Closing

section Filling

private theorem sameUpTo_closeFrom (grammar : Grammar) (config : ChartConfig) (tokens : Array Token)
    (fuel index : Nat) (begun : bound < state.sets.size) (behind : bound < position) :
    SameUpTo bound state.sets
      (reached (closeFrom grammar config tokens position fuel index state)).sets := by
  refine closeFrom_preserves (motive := fun middle => SameUpTo bound state.sets middle.sets)
    (fun index middle item _ before => ?_) fuel index (.refl _)
  obtain ⟨added, -, ended⟩ := reached_processItem grammar config tokens position index middle item
  have later : bound < (additions grammar tokens middle position index item).1 :=
    Nat.lt_of_lt_of_le behind le_additions
  rw [ended]
  exact before.trans (.putAll_behind (before.begun begun) later added)

private theorem sameUpTo_proceed_of_begun (grammar : Grammar) (config : ChartConfig)
    (tokens : Array Token) (left : Nat) (begun : bound < state.sets.size) (behind : bound ≤ position) :
    SameUpTo bound state.sets (proceed grammar config tokens position left state).1.sets := by
  induction left generalizing position state with
  | zero =>
    rw [proceed]
    split <;> exact .refl _
  | succ left ih =>
    have first := sameUpTo_closeFrom grammar config tokens (itemBound grammar (position + 1) + 1) 0
      begun (Nat.lt_succ_of_le behind)
    rw [proceed, fillFrom_eq, closeSet]
    generalize closeFrom grammar config tokens (position + 1) _ 0 state = answer at first
    split
    next => exact .refl _
    next =>
      cases answer with
      | error stop => exact first
      | ok next => exact first.trans (ih (first.begun begun) (Nat.le_succ_of_le behind))

theorem sameUpTo_proceed (grammar : Grammar) (config : ChartConfig) (tokens : Array Token)
    (position left : Nat) (state : ChartState) :
    SameUpTo position state.sets (proceed grammar config tokens position left state).1.sets := by
  by_cases begun : position < state.sets.size
  · exact sameUpTo_proceed_of_begun grammar config tokens left begun (Nat.le_refl position)
  · cases left with
    | zero =>
      rw [proceed]
      split <;> exact .refl _
    | succ left =>
      rw [proceed, if_pos (by omega)]
      exact .refl _

private theorem ok_of_conclude {answer : Except (LimitHit × ChartState) ChartState}
    {proceed : ChartState → ChartState × ChartOutcome}
    (quiet : ∀ hit, (conclude proceed answer).2 ≠ .limitExceeded hit) :
    ∃ next, answer = .ok next := by
  cases answer with
  | error stop => exact absurd rfl (quiet stop.1)
  | ok next => exact ⟨next, rfl⟩

/-- From the same sets on, two parses fill the same sets up to the bound, and if one of them finds no way
on before it, so does the other. -/
theorem SameUpTo.after_fillFrom (apart : Nat) {position left more : Nat} {state other : ChartState}
    (last : position + apart = bound) (inside : bound ≤ position + left)
    (within : bound ≤ position + more) (same : SameUpTo bound state.sets other.sets)
    (alike : AlikeUpTo bound tokens others) (grown : Grown grammar tokens state)
    (first : ∀ hit, (fillFrom grammar config tokens position left state).2 ≠ .limitExceeded hit)
    (second : ∀ hit, (fillFrom grammar config others position more other).2 ≠ .limitExceeded hit) :
    SameUpTo bound (fillFrom grammar config tokens position left state).1.sets
      (fillFrom grammar config others position more other).1.sets := by
  simp only [fillFrom_eq] at first second ⊢
  obtain ⟨result, closed⟩ := ok_of_conclude first
  obtain ⟨answer, shut⟩ := ok_of_conclude second
  obtain ⟨onward, next⟩ := same.after_closeFrom alike (by omega) grown closed shut
  simp only [closed, shut, conclude] at first second ⊢
  match apart, last with
  | 0, last =>
    obtain rfl : position = bound := last
    have own := sameUpTo_proceed grammar config tokens position left result
    have rest := sameUpTo_proceed grammar config others position more answer
    exact own.symm.trans (next.trans rest)
  | apart + 1, last =>
    obtain ⟨left, rfl⟩ : ∃ fewer, left = fewer + 1 := ⟨left - 1, by omega⟩
    obtain ⟨more, rfl⟩ : ∃ fewer, more = fewer + 1 := ⟨more - 1, by omega⟩
    have ends := next.size_le_iff (show position + 1 ≤ bound by omega)
    rw [proceed] at first second
    rw [proceed, proceed]
    by_cases stalled : result.sets.size ≤ position + 1
    · rw [if_pos stalled, if_pos (ends.mp stalled)]
      exact next
    · have further : ¬ answer.sets.size ≤ position + 1 := fun short => stalled (ends.mpr short)
      rw [if_neg stalled] at first ⊢
      rw [if_neg further] at second ⊢
      exact next.after_fillFrom apart (by omega) (by omega) (by omega) alike onward first second

end Filling

theorem Chart.quiet_construct (within : (Chart.build grammar config tokens).isLimitExceeded = false)
    (hit : LimitHit) : (Chart.construct grammar config tokens).2 ≠ .limitExceeded hit := by
  intro stopped
  rw [Chart.build_eq] at within
  simp [Chart.isLimitExceeded, stopped] at within

/-- Up to the end of what the fingerprints of two token lists share, the charts have the same sets: at
every position both have none, or both the same items in the same order with the same links. -/
theorem prefix_sets_shared (grammar : Grammar) (config : ChartConfig) {tokens others : List Token}
    (within : (Chart.build grammar config tokens.toArray).isLimitExceeded = false)
    (besides : (Chart.build grammar config others.toArray).isLimitExceeded = false) {position : Nat}
    (shared : position ≤ commonPrefix (Fingerprint.ofTokens tokens) (Fingerprint.ofTokens others)) :
    (Chart.build grammar config tokens.toArray).sets[position]? =
      (Chart.build grammar config others.toArray).sets[position]? := by
  have first := Chart.quiet_construct within
  have second := Chart.quiet_construct besides
  simp only [Chart.build_eq]
  simp only [Chart.construct] at first second ⊢
  obtain ⟨state, begun⟩ := ok_of_conclude first
  simp only [begun, conclude] at first second ⊢
  have started := (insertAll_spec config 0 .initial _).2 state begun
  have grown := started ▸ Grown.initial.putAll (justified_starts grammar tokens.toArray)
  obtain ⟨inside, also⟩ :=
    commonPrefix_le (Fingerprint.ofTokens tokens) (Fingerprint.ofTokens others)
  exact (SameUpTo.refl state.sets).after_fillFrom _ (Nat.zero_add _)
    (by simpa [Fingerprint.ofTokens] using inside) (by simpa [Fingerprint.ofTokens] using also)
    (alikeUpTo_commonPrefix tokens others) grown first second position shared

def shoutedSum : List Token :=
  [⟨"ONE", "one", [], .empty 4, false⟩, ⟨"PLUS", "plus", [], .empty 8, false⟩,
    ⟨"plus", "plus", [], .empty 13, false⟩]

theorem shoutedSum_shared :
    (Chart.build sums {} threeOnes.toList.toArray).isLimitExceeded = false ∧
      (Chart.build sums {} shoutedSum.toArray).isLimitExceeded = false ∧
      2 ≤ commonPrefix (Fingerprint.ofTokens threeOnes.toList) (Fingerprint.ofTokens shoutedSum) ∧
      (Chart.build sums {} threeOnes.toList.toArray).sets[2]? =
        (Chart.build sums {} shoutedSum.toArray).sets[2]? := by
  have within : (Chart.build sums {} threeOnes.toList.toArray).isLimitExceeded = false := by
    decide +kernel
  have besides : (Chart.build sums {} shoutedSum.toArray).isLimitExceeded = false := by decide +kernel
  have shared : 2 ≤ commonPrefix (Fingerprint.ofTokens threeOnes.toList)
      (Fingerprint.ofTokens shoutedSum) := by decide +kernel
  exact ⟨within, besides, shared, prefix_sets_shared sums {} within besides shared⟩

end Readings
