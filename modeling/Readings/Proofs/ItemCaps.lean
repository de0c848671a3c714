import Readings.Proofs.ChartConstruction
import Mathlib.Logic.Relation

/-! What the item caps do to a chart. Two constructions that differ in their caps only go the same way until
the narrower cap is passed, by one item; the wider one keeps that item and all before it. So the outcome
can be told from the chart without caps. -/

namespace Readings

namespace ChartState

structure Within (config : ChartConfig) (state : ChartState) : Prop where
  sets : ∀ position, (setAt state.sets position).size ≤ config.maxItemsPerSet
  total : state.total ≤ config.maxTotalItems

def Extends : ChartState → ChartState → Prop :=
  Relation.ReflTransGen fun state next => ∃ position entry, next = state.put position entry

/-- One item more than a cap allows. -/
structure Exceeds (config : ChartConfig) (hit : LimitHit) (state : ChartState) : Prop where
  byOne : hit.items = hit.limit + 1
  cap : hit.limit = config.maxItemsPerSet ∧ (setAt state.sets hit.position).size = hit.items ∨
    hit.limit = config.maxTotalItems ∧ state.total = hit.items

theorem total_put (state : ChartState) (position : Nat) (entry : Item × Link) :
    (state.put position entry).total =
      if (setAt state.sets position).contains entry.1 then state.total else state.total + 1 := by
  simp only [put, setAt_reach]

theorem size_setAt_put (state : ChartState) (position : Nat) (entry : Item × Link) (other : Nat) :
    (setAt (state.put position entry).sets other).size =
      if other = position ∧ (setAt state.sets position).contains entry.1 = false then
        (setAt state.sets other).size + 1
      else (setAt state.sets other).size := by
  rw [setAt_put]
  by_cases same : other = position
  · subst same
    rw [if_pos rfl, ChartSet.size_insert]
    cases (setAt state.sets other).contains entry.1 <;> simp
  · simp [same]

section Insert
variable (config : ChartConfig) (position : Nat) (state : ChartState) (item : Item) (link : Link)

/-- An insertion of a new item looks at the caps when the item is in its set. -/
theorem insert_eq :
    state.insert config position item link =
      let next := state.put position (item, link)
      let size := (setAt next.sets position).size
      if (setAt state.sets position).contains item then .ok next
      else if config.maxItemsPerSet < size then
        .error (⟨position, size, config.maxItemsPerSet⟩, next)
      else if config.maxTotalItems < next.total then
        .error (⟨position, next.total, config.maxTotalItems⟩, next)
      else .ok next := by
  have same := setAt_reach state position position
  by_cases known : (setAt state.sets position).contains item
  · have there := known
    rw [← same, setAt] at there
    simp only [insert, put, same, known, there, ite_true]
    rfl
  · have there := known
    rw [← same, setAt] at there
    simp only [insert, put, same, known, there, ite_false, Bool.false_eq_true]
    rfl

variable {config position state item link}

theorem insert_of_within (after : (state.put position (item, link)).Within config) :
    state.insert config position item link = .ok (state.put position (item, link)) := by
  have size := Nat.not_lt.mpr (after.sets position)
  have total := Nat.not_lt.mpr after.total
  simp only [insert_eq, size, total, ite_false, ite_self]

theorem insert_of_not_within (before : state.Within config)
    (after : ¬ (state.put position (item, link)).Within config) :
    ∃ hit, state.insert config position item link = .error (hit, state.put position (item, link)) ∧
      Exceeds config hit (state.put position (item, link)) := by
  have size := size_setAt_put state position (item, link)
  have total := total_put state position (item, link)
  have sets := before.sets
  have all := before.total
  simp only [insert_eq]
  by_cases known : (setAt state.sets position).contains item
  · simp only [known, ite_true] at size total
    refine absurd ⟨fun other => ?_, ?_⟩ after
    · simpa only [size, Bool.true_eq_false, and_false, ite_false] using sets other
    · simpa only [total] using all
  · simp only [known, and_true] at size total ⊢
    by_cases large : config.maxItemsPerSet <
        (setAt (state.put position (item, link)).sets position).size
    · have here := sets position
      have grown := size position
      simp only [ite_true] at grown
      simp only [large, ite_true]
      exact ⟨_, rfl, by simp only; omega, Or.inl ⟨rfl, rfl⟩⟩
    · have more : config.maxTotalItems < (state.put position (item, link)).total := by
        refine Nat.lt_of_not_le fun few => after ⟨fun other => ?_, few⟩
        by_cases same : other = position
        · rw [same]
          exact Nat.not_lt.mp large
        · simpa only [size, same, ite_false, false_and] using sets other
      simp only [large, more, ite_true, ite_false, Bool.false_eq_true] at total ⊢
      exact ⟨_, rfl, by simp only; omega, Or.inr ⟨rfl, rfl⟩⟩

end Insert

theorem Extends.putAll (position : Nat) (state : ChartState) (entries : List (Item × Link)) :
    Extends state (entries.foldl (put position) state) := by
  induction entries generalizing state with
  | nil => exact .refl
  | cons entry entries ih => exact .head ⟨position, entry, rfl⟩ (ih (state.put position entry))

theorem Extends.grows {state other : ChartState} (path : state.Extends other) :
    (∀ position, (setAt state.sets position).size ≤ (setAt other.sets position).size) ∧
      state.total ≤ other.total := by
  induction path with
  | refl => exact ⟨fun _ => Nat.le_refl _, Nat.le_refl _⟩
  | tail _ step ih =>
    obtain ⟨position, entry, rfl⟩ := step
    refine ⟨fun other => Nat.le_trans (ih.1 other) ?_, Nat.le_trans ih.2 ?_⟩
    · rw [size_setAt_put]
      split <;> omega
    · rw [total_put]
      split <;> omega

def itemCount (sets : Array ChartSet) : Nat := (sets.toList.map ChartSet.size).sum

private theorem itemCount_modify {sets : Array ChartSet} {position : Nat} (inside : position < sets.size)
    (change : ChartSet → ChartSet) :
    itemCount (sets.modify position change) + (setAt sets position).size =
      itemCount sets + (change (setAt sets position)).size := by
  have there : position < sets.toList.length := inside
  have parts : sets.toList = sets.toList.take position ++
      sets[position] :: sets.toList.drop (position + 1) := by
    rw [← Array.getElem_toList inside, List.getElem_cons_drop, List.take_append_drop]
  simp only [setAt, Array.getD_eq_getD_getElem?, Array.getElem?_eq_getElem inside, Option.getD_some,
    itemCount, Array.toList_modify, List.modify_eq_take_cons_drop there]
  conv => rhs; rw [parts]
  simp only [List.map_append, List.map_cons, List.sum_append, List.sum_cons, Array.getElem_toList]
  omega

private theorem itemCount_reach (state : ChartState) (position : Nat) :
    itemCount (state.reach position).sets = itemCount state.sets := by
  simp [itemCount, reach, ChartSet.size, ChartSet.empty]

theorem itemCount_put (state : ChartState) (position : Nat) (entry : Item × Link) :
    itemCount (state.put position entry).sets =
      if (setAt state.sets position).contains entry.1 then itemCount state.sets
      else itemCount state.sets + 1 := by
  have inside : position < (state.reach position).sets.size := by
    rw [size_reach]
    omega
  have changed := itemCount_modify inside fun set => set.insert entry.1 entry.2
  rw [itemCount_reach, setAt_reach, ChartSet.size_insert] at changed
  rw [show (state.put position entry).sets = (state.reach position).sets.modify position
    fun set => set.insert entry.1 entry.2 from rfl]
  split at changed
  next known =>
    rw [if_pos known]
    omega
  next fresh =>
    rw [if_neg fresh]
    omega

theorem Extends.total_eq {state : ChartState} (path : ChartState.initial.Extends state) :
    state.total = itemCount state.sets := by
  induction path with
  | refl => rfl
  | tail _ step ih =>
    obtain ⟨position, entry, rfl⟩ := step
    rw [total_put, itemCount_put, ih]

theorem extends_insertAll (config : ChartConfig) (position : Nat) (state : ChartState)
    (entries : List (Item × Link)) :
    state.Extends (reached (state.insertAll config position entries)) := by
  obtain ⟨⟨added, -, ended⟩, -⟩ := insertAll_spec config position state entries
  exact ended ▸ Extends.putAll position state added

theorem extends_closeFrom (grammar : Grammar) (config : ChartConfig) (tokens : Array Token)
    (position fuel index : Nat) (state : ChartState) :
    state.Extends (reached (closeFrom grammar config tokens position fuel index state)) := by
  refine closeFrom_preserves (fun _ middle item _ before => ?_) fuel index .refl
  rw [processItem_eq]
  exact before.trans (extends_insertAll _ _ _ _)

/-- The end of a construction that goes on from an answer, unless that has passed a cap. -/
def conclude (proceed : ChartState → ChartState × ChartOutcome) :
    Except (LimitHit × ChartState) ChartState → ChartState × ChartOutcome
  | .error (hit, state) => (state, .limitExceeded hit)
  | .ok state => proceed state

def proceed (grammar : Grammar) (config : ChartConfig) (tokens : Array Token) (position : Nat) :
    Nat → ChartState → ChartState × ChartOutcome
  | 0, state =>
    if (setAt state.sets position).items.any (Chart.isAccepting grammar) then (state, .success)
    else (state, .failed position (expectedIn grammar (setAt state.sets position)))
  | left + 1, state =>
    if state.sets.size ≤ position + 1 then
      (state, .failed position (expectedIn grammar (setAt state.sets position)))
    else fillFrom grammar config tokens (position + 1) left state

theorem fillFrom_eq (grammar : Grammar) (config : ChartConfig) (tokens : Array Token)
    (position left : Nat) (state : ChartState) :
    fillFrom grammar config tokens position left state =
      conclude (proceed grammar config tokens position left)
        (closeSet grammar config tokens position state) := by
  cases left <;> rw [fillFrom] <;> cases closeSet grammar config tokens position state <;> rfl

theorem extends_conclude {state : ChartState} {answer : Except (LimitHit × ChartState) ChartState}
    {proceed : ChartState → ChartState × ChartOutcome} (first : state.Extends (reached answer))
    (rest : ∀ next : ChartState, next.Extends (proceed next).1) :
    state.Extends (conclude proceed answer).1 := by
  cases answer with
  | error stop => exact first
  | ok next => exact first.trans (rest next)

theorem extends_proceed (grammar : Grammar) (config : ChartConfig) (tokens : Array Token)
    (position left : Nat) (state : ChartState) :
    state.Extends (proceed grammar config tokens position left state).1 := by
  induction left generalizing position state with
  | zero =>
    simp only [proceed]
    split <;> exact .refl
  | succ left ih =>
    simp only [proceed, fillFrom_eq]
    split
    · exact .refl
    · exact extends_conclude (extends_closeFrom _ _ _ _ _ _ _) (ih (position + 1))

theorem extends_fillFrom (grammar : Grammar) (config : ChartConfig) (tokens : Array Token)
    (position left : Nat) (state : ChartState) :
    state.Extends (fillFrom grammar config tokens position left state).1 := by
  rw [fillFrom_eq]
  exact extends_conclude (extends_closeFrom _ _ _ _ _ _ _) (extends_proceed _ _ _ _ _)

/-- How a construction under the caps and one with more room answer, from the same state. -/
inductive Agrees (config : ChartConfig) : Except (LimitHit × ChartState) ChartState →
    Except (LimitHit × ChartState) ChartState → Prop where
  /-- Neither passed a cap. -/
  | alike {state : ChartState} (within : state.Within config) : Agrees config (.ok state) (.ok state)
  /-- The first passed a cap, and the second went on from there. -/
  | stopped {hit : LimitHit} {state : ChartState} {answer : Except (LimitHit × ChartState) ChartState}
      (exceeds : Exceeds config hit state) (further : state.Extends (reached answer)) :
      Agrees config (.error (hit, state)) answer

inductive AgreesAtEnd (config : ChartConfig) : ChartState × ChartOutcome → ChartState × ChartOutcome →
    Prop where
  | alike {state : ChartState} {outcome : ChartOutcome} (within : state.Within config)
      (quiet : ∀ hit, outcome ≠ .limitExceeded hit) :
      AgreesAtEnd config (state, outcome) (state, outcome)
  | stopped {hit : LimitHit} {state : ChartState} {result : ChartState × ChartOutcome}
      (exceeds : Exceeds config hit state) (further : state.Extends result.1) :
      AgreesAtEnd config (state, .limitExceeded hit) result

end ChartState

structure ChartConfig.IsNarrower (narrow wide : ChartConfig) : Prop where
  sets : narrow.maxItemsPerSet ≤ wide.maxItemsPerSet
  total : narrow.maxTotalItems ≤ wide.maxTotalItems

section Agreement

open ChartState

variable {narrow wide : ChartConfig} (narrower : narrow.IsNarrower wide)
include narrower

theorem ChartState.Within.widen {state : ChartState} (within : state.Within narrow) :
    state.Within wide :=
  ⟨fun position => Nat.le_trans (within.sets position) narrower.sets,
    Nat.le_trans within.total narrower.total⟩

theorem insertAll_agrees (position : Nat) {state : ChartState} (within : state.Within narrow)
    (entries : List (Item × Link)) :
    Agrees narrow (state.insertAll narrow position entries)
      (state.insertAll wide position entries) := by
  induction entries generalizing state with
  | nil => exact .alike within
  | cons entry entries ih =>
    obtain ⟨item, link⟩ := entry
    by_cases after : (state.put position (item, link)).Within narrow
    · simp only [insertAll, insert_of_within after, insert_of_within (after.widen narrower)]
      exact ih after
    · obtain ⟨hit, stopped, exceeds⟩ := insert_of_not_within within after
      simp only [insertAll, stopped]
      apply Agrees.stopped exceeds
      rcases insert_cases wide position state item link with inserted | ⟨other, refused⟩
      · simp only [inserted]
        exact extends_insertAll _ _ _ _
      · simp only [refused]
        exact .refl

variable (grammar : Grammar) (tokens : Array Token)

theorem closeFrom_agrees (position fuel index : Nat) {state : ChartState}
    (within : state.Within narrow) :
    Agrees narrow (closeFrom grammar narrow tokens position fuel index state)
      (closeFrom grammar wide tokens position fuel index state) := by
  induction fuel generalizing index state with
  | zero => exact .alike within
  | succ fuel ih =>
    simp only [closeFrom_succ]
    split
    next => exact .alike within
    next item found =>
      have first : Agrees narrow (processItem grammar narrow tokens position index state item)
          (processItem grammar wide tokens position index state item) := by
        simp only [processItem_eq]
        exact insertAll_agrees narrower _ within _
      generalize processItem grammar wide tokens position index state item = answer at first
      generalize processItem grammar narrow tokens position index state item = own at first
      cases first with
      | alike after => exact ih (index + 1) after
      | stopped exceeds further =>
        apply Agrees.stopped exceeds
        cases answer with
        | error stop => exact further
        | ok next => exact further.trans (extends_closeFrom _ _ _ _ _ _ _)

omit narrower in
theorem conclude_agrees {own answer : Except (LimitHit × ChartState) ChartState}
    {proceed other : ChartState → ChartState × ChartOutcome} (first : Agrees narrow own answer)
    (rest : ∀ state : ChartState, state.Within narrow → AgreesAtEnd narrow (proceed state) (other state))
    (further : ∀ state : ChartState, state.Extends (other state).1) :
    AgreesAtEnd narrow (conclude proceed own) (conclude other answer) := by
  cases first with
  | alike within => exact rest _ within
  | stopped exceeds grown => exact .stopped exceeds (extends_conclude grown further)

theorem proceed_agrees (position left : Nat) {state : ChartState} (within : state.Within narrow) :
    AgreesAtEnd narrow (proceed grammar narrow tokens position left state)
      (proceed grammar wide tokens position left state) := by
  induction left generalizing position state with
  | zero =>
    simp only [proceed]
    split <;> exact .alike within (by simp)
  | succ left ih =>
    simp only [proceed, fillFrom_eq]
    split
    · exact .alike within (by simp)
    · exact conclude_agrees (closeFrom_agrees narrower grammar tokens (position + 1) _ 0 within)
        (fun _ after => ih (position + 1) after) (extends_proceed _ _ _ _ _)

theorem fillFrom_agrees (position left : Nat) {state : ChartState} (within : state.Within narrow) :
    AgreesAtEnd narrow (fillFrom grammar narrow tokens position left state)
      (fillFrom grammar wide tokens position left state) := by
  simp only [fillFrom_eq]
  exact conclude_agrees (closeFrom_agrees narrower grammar tokens position _ 0 within)
    (fun _ after => proceed_agrees narrower grammar tokens position left after)
    (extends_proceed _ _ _ _ _)

end Agreement

end Readings
