import Readings.Proofs.LinkOrder

/-! What a construction leaves behind. The items of a set are processed to the last, since there are no
more of them than were counted on; so a chart that no cap cut short is closed at every position, and
its outcome is what its sets say. -/

namespace Readings

section
variable (grammar : Grammar) (tokens : Array Token)

/-- The sets before a position are closed, and the items of its own set are processed up to an index. -/
structure Closing (state : ChartState) (position index : Nat) : Prop where
  grown : Grown grammar tokens state
  started : ∀ rule, grammar.lhs? rule = some grammar.start →
    Item.initial rule 0 ∈ (setAt state.sets 0).items
  closed : ∀ earlier < position, Closed grammar tokens state.sets earlier
  processed : Processed grammar tokens state.sets position
    ((setAt state.sets position).items.take index)
  reached : index ≤ (setAt state.sets position).items.length
  inOrder : ∀ earlier < position, InOrder grammar state.sets earlier (setAt state.sets earlier).items
  ordered : InOrder grammar state.sets position ((setAt state.sets position).items.take index)
  unreported : ∀ later, position < later → Unreported state.sets later

/-- The rules of the start symbol are in the first set, and all sets are closed. -/
structure Saturated (sets : Array ChartSet) : Prop where
  sound : Sound grammar tokens sets
  started : ∀ rule, grammar.lhs? rule = some grammar.start →
    Item.initial rule 0 ∈ (setAt sets 0).items
  closed : ∀ position, Closed grammar tokens sets position
  inOrder : ∀ position, InOrder grammar sets position (setAt sets position).items

/-- The outcome that saturated sets have. -/
inductive Verdict (sets : Array ChartSet) : ChartOutcome → Prop where
  | success {item : Item} (member : item ∈ (setAt sets tokens.size).items)
      (accepting : Chart.isAccepting grammar item = true) : Verdict sets .success
  | stalled {position : Nat} (early : position < tokens.size)
      (empty : ∀ later, position < later → (setAt sets later).items = []) :
      Verdict sets (.failed position (expectedIn grammar (setAt sets position)))
  | unfinished (none : ∀ item ∈ (setAt sets tokens.size).items,
      Chart.isAccepting grammar item = false) :
      Verdict sets (.failed tokens.size (expectedIn grammar (setAt sets tokens.size)))

end

variable {grammar : Grammar} {tokens : Array Token}

theorem Sound.items_outside {sets : Array ChartSet} (sound : Sound grammar tokens sets) {position : Nat}
    (outside : tokens.size < position) : (setAt sets position).items = [] :=
  List.eq_nil_iff_forall_not_mem.mpr fun item member =>
    Nat.not_le.mpr outside (sound.grounded position item member).inside

theorem ChartSet.getElem?_items (set : ChartSet) (index : Nat) :
    set.items[index]? = set.entries[index]?.map (·.item) := by
  simp [ChartSet.items]

theorem closeFrom_succ (grammar : Grammar) (config : ChartConfig) (tokens : Array Token)
    (position fuel index : Nat) (state : ChartState) :
    closeFrom grammar config tokens position (fuel + 1) index state =
      match (setAt state.sets position).items[index]? with
      | none => .ok state
      | some item =>
        match processItem grammar config tokens position index state item with
        | .error stop => .error stop
        | .ok middle => closeFrom grammar config tokens position fuel (index + 1) middle := by
  rw [closeFrom, ChartSet.getElem?_items, setAt]
  cases (state.sets.getD position .empty).entries[index]? <;> rfl

/-- What holds from one item processed to the next holds in the end, also where a cap stops the work. -/
theorem closeFrom_preserves {motive : ChartState → Prop} {config : ChartConfig} {position : Nat}
    (step : ∀ index state, ∀ item ∈ (setAt state.sets position).items, motive state →
      motive (ChartState.reached (processItem grammar config tokens position index state item)))
    (fuel index : Nat) {state : ChartState} (start : motive state) :
    motive (ChartState.reached (closeFrom grammar config tokens position fuel index state)) := by
  induction fuel generalizing index state with
  | zero => exact start
  | succ fuel ih =>
    rw [closeFrom_succ]
    split
    next => exact start
    next item found =>
      have onward := step index state item (List.mem_of_getElem? found) start
      split
      next stop stopped => exact stopped ▸ onward
      next middle processed =>
        rw [processed] at onward
        exact ih (index + 1) onward

theorem Grown.after_insertAll {state : ChartState} (grown : Grown grammar tokens state)
    (config : ChartConfig) {position : Nat} {entries : List (Item × Link)}
    (reasons : ∀ entry ∈ entries, Justified grammar tokens state.sets position entry.1 entry.2) :
    Grown grammar tokens (ChartState.reached (state.insertAll config position entries)) := by
  obtain ⟨⟨added, start, ended⟩, -⟩ := ChartState.insertAll_spec config position state entries
  rw [ended]
  exact grown.putAll fun entry member => reasons entry (start.subset member)

theorem Grown.after_closeFrom {state : ChartState} (grown : Grown grammar tokens state)
    (config : ChartConfig) (position fuel index : Nat) :
    Grown grammar tokens
      (ChartState.reached (closeFrom grammar config tokens position fuel index state)) :=
  closeFrom_preserves (fun _ _ _ member before => (processItem_spec config before member).1)
    fuel index grown

theorem Closing.step {state : ChartState} {position index : Nat}
    (closing : Closing grammar tokens state position index) {item : Item}
    (found : (setAt state.sets position).items[index]? = some item) :
    Closing grammar tokens (state.process grammar tokens position index item) position (index + 1) := by
  obtain ⟨inside, here⟩ := List.getElem?_eq_some_iff.mp found
  have sound := closing.grown.sound
  have items : (setAt state.sets position).items =
      (setAt state.sets position).items.take index ++
        item :: (setAt state.sets position).items.drop (index + 1) := by
    rw [← here, List.getElem_cons_drop, List.take_append_drop]
  have index_eq : ((setAt state.sets position).items.take index).length = index :=
    List.length_take_of_le closing.reached
  have next := closing.processed.next closing.grown items
  rw [index_eq] at next
  have reasons := justified_additions closing.grown index (List.mem_of_getElem? found)
  obtain ⟨more, grows⟩ : (setAt state.sets position).items <+:
    (setAt (state.process grammar tokens position index item).sets position).items :=
      ChartState.items_process position
  refine ⟨closing.grown.putAll reasons, ?_, ?_, ?_, ?_, ?_, ?_, fun later after =>
    (closing.unreported later after).process after index item⟩
  · intro rule known
    exact (ChartState.items_process 0).subset (closing.started rule known)
  · intro earlier before
    rw [Closed, ChartState.setAt_process before]
    exact (closing.closed earlier before).mono (fun other member => sound.grounded _ _ member)
      (fun other first => ChartState.setAt_process (Nat.lt_trans first before)) coversLinks_process
  · rw [← grows, List.take_append_of_le_length (by omega), List.take_add_one, found]
    exact next
  · rw [← grows, List.length_append]
    omega
  · intro earlier before
    rw [ChartState.setAt_process before]
    exact (closing.inOrder earlier before).congr fun other first =>
      ChartState.setAt_process (Nat.lt_of_le_of_lt first before)
  · have ordered := closing.ordered.next sound items
    rw [index_eq] at ordered
    rw [← grows, List.take_append_of_le_length (by omega), List.take_add_one, found]
    exact ordered

/-- A set whose items are all processed is closed, and the next one can be begun. -/
theorem Closing.finish {state : ChartState} {position index : Nat}
    (closing : Closing grammar tokens state position index)
    (done : (setAt state.sets position).items.length ≤ index) :
    Closing grammar tokens state (position + 1) 0 := by
  refine ⟨closing.grown, closing.started, ?_, Processed.nil _ _, Nat.zero_le _, ?_,
    InOrder.nil (closing.unreported _ (Nat.lt_succ_self position)), fun later after =>
      closing.unreported later (Nat.lt_of_succ_lt after)⟩
  · intro earlier before
    rcases Nat.lt_succ_iff_lt_or_eq.mp before with before | rfl
    · exact closing.closed earlier before
    · simpa only [Closed, List.take_of_length_le done] using closing.processed
  · intro earlier before
    rcases Nat.lt_succ_iff_lt_or_eq.mp before with before | rfl
    · exact closing.inOrder earlier before
    · simpa only [List.take_of_length_le done] using closing.ordered

private theorem closeFrom_closes {config : ChartConfig} {position fuel index : Nat}
    {state result : ChartState} (closing : Closing grammar tokens state position index)
    (enough : itemBound grammar position < fuel + index)
    (closed : closeFrom grammar config tokens position fuel index state = .ok result) :
    Closing grammar tokens result (position + 1) 0 := by
  induction fuel generalizing index state with
  | zero =>
    have bound := closing.grown.sound.length_le position
    have reached := closing.reached
    omega
  | succ fuel ih =>
    rw [closeFrom_succ] at closed
    split at closed
    next none =>
      obtain rfl := Except.ok.inj closed
      exact closing.finish (List.getElem?_eq_none_iff.mp none)
    next item found =>
      have step := closing.step found
      split at closed
      next => cases closed
      next middle processed =>
        rw [← processItem_ok processed] at step
        exact ih step (by omega) closed

private theorem closeSet_closes (config : ChartConfig) (position : Nat) {state : ChartState}
    (closing : Closing grammar tokens state position 0) :
    Grown grammar tokens (ChartState.reached (closeSet grammar config tokens position state)) ∧
      ∀ result, closeSet grammar config tokens position state = .ok result →
        Closing grammar tokens result (position + 1) 0 :=
  ⟨closing.grown.after_closeFrom config position _ 0,
    fun _ closed => closeFrom_closes closing (Nat.lt_succ_self _) closed⟩

theorem Closing.saturated {state : ChartState} {position : Nat}
    (closing : Closing grammar tokens state (position + 1) 0)
    (empty : ∀ later, position < later → (setAt state.sets later).items = []) :
    Saturated grammar tokens state.sets := by
  refine ⟨closing.grown.sound, closing.started, ?_, ?_⟩
  · intro other
    by_cases before : other < position + 1
    · exact closing.closed other before
    · rw [Closed, empty other (by omega)]
      exact Processed.nil _ _
  · intro other
    rcases Nat.lt_trichotomy other (position + 1) with before | rfl | after
    · exact closing.inOrder other before
    · rw [empty _ (Nat.lt_succ_self position)]
      exact closing.ordered
    · rw [empty other (by omega)]
      exact InOrder.nil (closing.unreported other after)

/-- What is known of the states and the outcomes of a construction. -/
structure Settles (grammar : Grammar) (tokens : Array Token) (result : ChartState × ChartOutcome) :
    Prop where
  grown : Grown grammar tokens result.1
  settled : (∃ hit, result.2 = .limitExceeded hit) ∨
    Saturated grammar tokens result.1.sets ∧ Verdict grammar tokens result.1.sets result.2

private theorem fillFrom_settles (config : ChartConfig) (position left : Nat) {state : ChartState}
    (closing : Closing grammar tokens state position 0) (rest : position + left = tokens.size) :
    Settles grammar tokens (fillFrom grammar config tokens position left state) := by
  induction left generalizing position state with
  | zero =>
    obtain rfl : position = tokens.size := by omega
    obtain ⟨grown, closes⟩ := closeSet_closes config tokens.size closing
    rw [fillFrom]
    cases closed : closeSet grammar config tokens tokens.size state with
    | error stop =>
      rw [closed] at grown
      exact ⟨grown, Or.inl ⟨_, rfl⟩⟩
    | ok result =>
      have done := closes result closed
      have saturated := done.saturated fun later after => done.grown.sound.items_outside after
      dsimp only
      split
      next accepted =>
        obtain ⟨item, member, accepting⟩ := List.any_eq_true.mp accepted
        exact ⟨done.grown, Or.inr ⟨saturated, .success member accepting⟩⟩
      next rejected =>
        have none := List.any_eq_false.mp (Bool.not_eq_true _ ▸ rejected)
        exact ⟨done.grown, Or.inr ⟨saturated, .unfinished fun item member => by
          simpa using none item member⟩⟩
  | succ left ih =>
    obtain ⟨grown, closes⟩ := closeSet_closes config position closing
    rw [fillFrom]
    cases closed : closeSet grammar config tokens position state with
    | error stop =>
      rw [closed] at grown
      exact ⟨grown, Or.inl ⟨_, rfl⟩⟩
    | ok result =>
      have done := closes result closed
      dsimp only
      split
      next stalled =>
        have empty : ∀ later, position < later → (setAt result.sets later).items = [] := by
          intro later after
          rw [setAt_of_size_le (by omega), ChartSet.items_empty]
        exact ⟨done.grown, Or.inr ⟨done.saturated empty, .stalled (by omega) empty⟩⟩
      next => exact ih (position + 1) done (by omega)

private theorem closing_start {state : ChartState}
    (started : state = ((grammar.rulesFor grammar.start).map fun rule =>
      (Item.initial rule 0, Link.predicted)).foldl (ChartState.put 0) .initial)
    (grown : Grown grammar tokens state) : Closing grammar tokens state 0 0 := by
  have before : ∀ earlier < 0, Closed grammar tokens state.sets earlier :=
    fun _ before => absurd before (Nat.not_lt_zero _)
  have unreported : ∀ position, Unreported state.sets position := by
    intro position
    have blank : Unreported ChartState.initial.sets position := by
      intro split item
      cases position <;> rfl
    rw [started]
    apply blank.putAll
    intro _ split
    simp [childrenFrom]
  refine ⟨grown, ?_, before, Processed.nil _ _, Nat.zero_le _,
    fun _ before => absurd before (Nat.not_lt_zero _), InOrder.nil (unreported 0),
    fun later _ => unreported later⟩
  intro rule known
  have listed : (Item.initial rule 0, Link.predicted) ∈ (grammar.rulesFor grammar.start).map
      fun rule => (Item.initial rule 0, Link.predicted) :=
    List.mem_map.mpr ⟨rule, Grammar.mem_rulesFor.mpr known, rfl⟩
  have linked := mem_links_putAll 0 .initial _ listed
  rw [started]
  exact ChartSet.mem_items_of_link linked

theorem justified_starts (grammar : Grammar) (tokens : Array Token) :
    ∀ entry ∈ (grammar.rulesFor grammar.start).map fun rule => (Item.initial rule 0, Link.predicted),
      Justified grammar tokens ChartState.initial.sets 0 entry.1 entry.2 := by
  intro entry member
  obtain ⟨rule, found, rfl⟩ := List.mem_map.mp member
  exact .predicted (Grammar.mem_rulesFor.mp found) (Or.inl ⟨rfl, rfl⟩)

theorem build_settles (grammar : Grammar) (config : ChartConfig) (tokens : Array Token) :
    ∃ result, Settles grammar tokens result ∧
      (Chart.build grammar config tokens).sets = result.1.sets ∧
      (Chart.build grammar config tokens).outcome = result.2 := by
  have grown := Grown.initial.after_insertAll config (justified_starts grammar tokens)
  have complete := (ChartState.insertAll_spec config 0 .initial
    ((grammar.rulesFor grammar.start).map fun rule => (Item.initial rule 0, Link.predicted))).2
  simp only [Chart.build]
  split
  next hit state stopped =>
    rw [stopped] at grown
    exact ⟨(state, .limitExceeded hit), ⟨grown, Or.inl ⟨hit, rfl⟩⟩, rfl, rfl⟩
  next state inserted =>
    rw [inserted] at grown
    have begun := complete state inserted
    exact ⟨_, fillFrom_settles config 0 tokens.size (closing_start begun grown) (by omega), rfl, rfl⟩

end Readings
