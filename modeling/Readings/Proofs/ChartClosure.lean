import Readings.Proofs.ItemBound

/-! What is added while a set is processed. Every item that waits and every completion of what it waits
for meet once: when the later of the two is processed. A set that was processed as a whole is therefore
closed, also under completions that start and end in it. -/

namespace Readings

section
variable (grammar : Grammar) (tokens : Array Token)

/-- Where the processing of an item adds links, and which. -/
def additions (state : ChartState) (position index : Nat) (item : Item) : Nat × List (Item × Link) :=
  match item.next? grammar with
  | none => (position, completions grammar state position index item)
  | some (.nonTerminal symbol) => (position, predictions grammar state position index item symbol)
  | some (.terminal terminal) => (position + 1, scans tokens position item terminal)

/-- The links that some items of the set at a position lead to are there. Completions find the items
that waited for them among the same items, or in an earlier set. -/
structure Processed (sets : Array ChartSet) (position : Nat) (done : List Item) : Prop where
  predicts : ∀ waiter ∈ done, ∀ symbol rule, waiter.next? grammar = some (.nonTerminal symbol) →
    grammar.lhs? rule = some symbol →
    .predicted ∈ (setAt sets position).links (Item.initial rule position)
  scans : ∀ item ∈ done, ∀ terminal token, item.next? grammar = some (.terminal terminal) →
    tokens[position]? = some token → terminal.accepts token = true →
    .scanned position ∈ (setAt sets (position + 1)).links item.advance
  completes : ∀ split child symbol waiter, Item.whole grammar child split ∈ done →
    grammar.lhs? child = some symbol →
    waiter ∈ (if split = position then done else (setAt sets split).items) →
    waiter.next? grammar = some (.nonTerminal symbol) →
    .completed split child ∈ (setAt sets position).links waiter.advance

def Closed (sets : Array ChartSet) (position : Nat) : Prop :=
  Processed grammar tokens sets position (setAt sets position).items

end

variable {grammar : Grammar} {tokens : Array Token}

theorem processItem_eq (config : ChartConfig) (position index : Nat) (state : ChartState)
    (item : Item) :
    processItem grammar config tokens position index state item =
      state.insertAll config (additions grammar tokens state position index item).1
        (additions grammar tokens state position index item).2 := by
  cases next : item.next? grammar with
  | none => simp only [processItem, additions, next]
  | some element => cases element <;> simp only [processItem, additions, next]

theorem Item.waitsFor_iff {item : Item} {symbol : Symbol} :
    item.waitsFor grammar symbol = true ↔ item.next? grammar = some (.nonTerminal symbol) := by
  simp [Item.waitsFor]

theorem Item.next_whole (rule : RuleId) (origin : Nat) :
    (Item.whole grammar rule origin).next? grammar = none := by
  simp [Item.whole, Item.next?]

theorem Grounded.yields_iff {sets : Array ChartSet} {position : Nat} {item : Item} {symbol : Symbol}
    (grounded : Grounded grammar tokens sets position item) :
    item.yields grammar symbol = true ↔
      item = Item.whole grammar item.rule item.origin ∧ grammar.lhs? item.rule = some symbol := by
  simp only [Item.yields, Item.isComplete, Bool.and_eq_true, decide_eq_true_eq, beq_iff_eq]
  apply and_congr_left
  intro _
  constructor
  · intro long
    exact grounded.eq_whole (List.getElem?_eq_none_iff.mpr long)
  · intro same
    exact Nat.le_of_eq (congrArg Item.dot same).symm

theorem ChartState.past_eq (state : ChartState) (position index origin : Nat) :
    state.past position index origin =
      if origin = position then (setAt state.sets origin).items.take index
      else (setAt state.sets origin).items := rfl

theorem ChartState.past_subset (state : ChartState) (position index origin : Nat) :
    state.past position index origin ⊆ (setAt state.sets origin).items := by
  rw [past_eq]
  split
  · exact List.take_subset _ _
  · exact List.Subset.refl _

theorem justified_additions {state : ChartState} (grown : Grown grammar tokens state)
    {position : Nat} (index : Nat) {item : Item} (member : item ∈ (setAt state.sets position).items) :
    ∀ entry ∈ (additions grammar tokens state position index item).2,
      Justified grammar tokens state.sets (additions grammar tokens state position index item).1
        entry.1 entry.2 := by
  have sound := grown.sound
  have grounded := sound.grounded position item member
  intro entry added
  simp only [additions] at added ⊢
  split at added
  next complete =>
    simp only [completions] at added
    split at added
    next => exact absurd added List.not_mem_nil
    next symbol known =>
      obtain ⟨waiter, waiting, rfl⟩ := List.mem_map.mp added
      obtain ⟨earlier, waits⟩ := List.mem_filter.mp waiting
      have whole := grounded.eq_whole complete
      exact .completed (state.past_subset _ _ _ earlier) (Item.waitsFor_iff.mp waits) known
        (whole ▸ member)
  next symbol next =>
    simp only [predictions, List.mem_append] at added
    rcases added with added | added
    · obtain ⟨rule, found, rfl⟩ := List.mem_map.mp added
      exact .predicted (Grammar.mem_rulesFor.mp found) (Or.inr ⟨item, member, next⟩)
    · obtain ⟨earlier, found, rfl⟩ := List.mem_map.mp added
      obtain ⟨past, empty⟩ := List.mem_filter.mp found
      simp only [Bool.and_eq_true, beq_iff_eq] at empty
      have inside := state.past_subset _ _ _ past
      obtain ⟨whole, known⟩ := (sound.grounded position earlier inside).yields_iff.mp empty.2
      rw [empty.1] at whole
      exact .completed member next known (whole ▸ inside)
  next terminal next =>
    simp only [scans] at added
    split at added
    next token found =>
      split at added
      next accepted =>
        obtain rfl := List.mem_singleton.mp added
        exact .scanned member next found accepted
      next => exact absurd added List.not_mem_nil
    next => exact absurd added List.not_mem_nil

def CoversLinks (sets others : Array ChartSet) : Prop :=
  ∀ position item, (setAt sets position).links item ⊆ (setAt others position).links item

section PutAll
variable (position : Nat) (state : ChartState) (entries : List (Item × Link))

theorem ChartState.setAt_putAll_ne {other : Nat} (different : other ≠ position) :
    setAt (entries.foldl (put position) state).sets other = setAt state.sets other := by
  induction entries generalizing state with
  | nil => rfl
  | cons entry entries ih => simp only [List.foldl_cons, ih, setAt_put, different, ite_false]

theorem ChartState.items_putAll (other : Nat) :
    (setAt state.sets other).items <+:
      (setAt (entries.foldl (put position) state).sets other).items := by
  induction entries generalizing state with
  | nil => exact List.prefix_rfl
  | cons entry entries ih =>
    apply List.IsPrefix.trans ?_ (ih (state.put position entry))
    rw [setAt_put]
    split
    next same => exact same ▸ ChartSet.items_prefix _ _ _
    next => exact List.prefix_rfl

theorem coversLinks_putAll : CoversLinks state.sets (entries.foldl (ChartState.put position) state).sets := by
  induction entries generalizing state with
  | nil => exact fun _ _ => List.Subset.refl _
  | cons entry entries ih =>
    intro other item link member
    apply ih (state.put position entry) other item
    rw [ChartState.setAt_put]
    split
    next same => exact ChartSet.mem_links_insert.mpr (Or.inl (same ▸ member))
    next => exact member

theorem mem_links_putAll {entry : Item × Link} (member : entry ∈ entries) :
    entry.2 ∈ (setAt (entries.foldl (ChartState.put position) state).sets position).links entry.1 := by
  induction entries generalizing state with
  | nil => exact absurd member List.not_mem_nil
  | cons first entries ih =>
    rcases List.mem_cons.mp member with rfl | member
    · apply coversLinks_putAll position (state.put position entry) entries position entry.1
      rw [ChartState.setAt_put, if_pos rfl]
      exact ChartSet.mem_links_insert.mpr (Or.inr ⟨rfl, rfl⟩)
    · exact ih _ member

end PutAll

section Process
variable {state : ChartState} {position index : Nat} {item : Item}

theorem additions_complete (complete : item.next? grammar = none) :
    additions grammar tokens state position index item =
      (position, completions grammar state position index item) := by
  simp only [additions, complete]

theorem additions_nonTerminal {symbol : Symbol} (next : item.next? grammar = some (.nonTerminal symbol)) :
    additions grammar tokens state position index item =
      (position, predictions grammar state position index item symbol) := by
  simp only [additions, next]

theorem additions_terminal {terminal : Terminal} (next : item.next? grammar = some (.terminal terminal)) :
    additions grammar tokens state position index item =
      (position + 1, scans tokens position item terminal) := by
  simp only [additions, next]

theorem le_additions : position ≤ (additions grammar tokens state position index item).1 := by
  simp only [additions]
  split
  · exact Nat.le_refl position
  · exact Nat.le_refl position
  · exact Nat.le_succ position

variable (grammar tokens) in
def ChartState.process (state : ChartState) (position index : Nat) (item : Item) : ChartState :=
  (additions grammar tokens state position index item).2.foldl
    (put (additions grammar tokens state position index item).1) state

theorem ChartState.setAt_process {earlier : Nat} (before : earlier < position) :
    setAt (state.process grammar tokens position index item).sets earlier = setAt state.sets earlier :=
  setAt_putAll_ne _ _ _ (Nat.ne_of_lt (Nat.lt_of_lt_of_le before le_additions))

theorem ChartState.items_process (other : Nat) :
    (setAt state.sets other).items <+:
      (setAt (state.process grammar tokens position index item).sets other).items :=
  items_putAll _ _ _ other

theorem coversLinks_process :
    CoversLinks state.sets (state.process grammar tokens position index item).sets :=
  coversLinks_putAll _ _ _

private theorem predicted_process {symbol : Symbol} {rule : RuleId}
    (next : item.next? grammar = some (.nonTerminal symbol)) (known : grammar.lhs? rule = some symbol) :
    .predicted ∈ (setAt (state.process grammar tokens position index item).sets position).links
      (Item.initial rule position) := by
  have listed : (Item.initial rule position, Link.predicted) ∈
      predictions grammar state position index item symbol := by
    apply List.mem_append_left
    exact List.mem_map.mpr ⟨rule, Grammar.mem_rulesFor.mpr known, rfl⟩
  have noted := mem_links_putAll position state _ listed
  rw [ChartState.process, additions_nonTerminal next]
  exact noted

private theorem scanned_process {terminal : Terminal} {token : Token}
    (next : item.next? grammar = some (.terminal terminal)) (found : tokens[position]? = some token)
    (accepted : terminal.accepts token = true) :
    .scanned position ∈ (setAt (state.process grammar tokens position index item).sets
      (position + 1)).links item.advance := by
  have listed : (item.advance, Link.scanned position) ∈ scans tokens position item terminal := by
    simp only [scans, found, accepted, ite_true, List.mem_singleton]
  have noted := mem_links_putAll (position + 1) state _ listed
  rw [ChartState.process, additions_terminal next]
  exact noted

private theorem completed_process_waiter (sound : Sound grammar tokens state.sets) {symbol : Symbol}
    {child : RuleId} (next : item.next? grammar = some (.nonTerminal symbol))
    (known : grammar.lhs? child = some symbol)
    (complete : Item.whole grammar child position ∈ state.past position index position) :
    .completed position child ∈
      (setAt (state.process grammar tokens position index item).sets position).links item.advance := by
  have yields := (sound.grounded _ _ (state.past_subset _ _ _ complete)).yields_iff.mpr ⟨rfl, known⟩
  have listed : (item.advance, Link.completed position child) ∈
      predictions grammar state position index item symbol := by
    apply List.mem_append_right
    refine List.mem_map.mpr ⟨_, List.mem_filter.mpr ⟨complete, ?_⟩, rfl⟩
    simpa [Item.whole] using yields
  have noted := mem_links_putAll position state _ listed
  rw [ChartState.process, additions_nonTerminal next]
  exact noted

/-- A completion finds the items that wait for it where it starts. -/
private theorem completed_process_child {symbol : Symbol} {child : RuleId} {split : Nat} {waiter : Item}
    (next : waiter.next? grammar = some (.nonTerminal symbol))
    (known : grammar.lhs? child = some symbol) (waiting : waiter ∈ state.past position index split) :
    .completed split child ∈
      (setAt (state.process grammar tokens position index (Item.whole grammar child split)).sets
        position).links waiter.advance := by
  have listed : (waiter.advance, Link.completed split child) ∈
      completions grammar state position index (Item.whole grammar child split) := by
    simp only [completions, Item.whole, known]
    exact List.mem_map.mpr ⟨waiter, List.mem_filter.mpr ⟨waiting, Item.waitsFor_iff.mpr next⟩, rfl⟩
  have noted := mem_links_putAll position state _ listed
  rw [ChartState.process, additions_complete (Item.next_whole child split)]
  exact noted

theorem processItem_ok {config : ChartConfig} {result : ChartState}
    (processed : processItem grammar config tokens position index state item = .ok result) :
    result = state.process grammar tokens position index item := by
  rw [processItem_eq] at processed
  exact (ChartState.insertAll_spec _ _ _ _).2 result processed

/-- A beginning of what the item leads to is added, wherever a cap stops that. -/
theorem reached_processItem (grammar : Grammar) (config : ChartConfig) (tokens : Array Token)
    (position index : Nat) (state : ChartState) (item : Item) :
    ∃ added, added <+: (additions grammar tokens state position index item).2 ∧
      ChartState.reached (processItem grammar config tokens position index state item) =
        added.foldl (ChartState.put (additions grammar tokens state position index item).1) state := by
  rw [processItem_eq]
  exact (ChartState.insertAll_spec _ _ _ _).1

theorem processItem_spec (config : ChartConfig) (grown : Grown grammar tokens state)
    (member : item ∈ (setAt state.sets position).items) :
    Grown grammar tokens
        (ChartState.reached (processItem grammar config tokens position index state item)) ∧
      ∀ result, processItem grammar config tokens position index state item = .ok result →
        result = state.process grammar tokens position index item := by
  have reasons := justified_additions grown index member
  obtain ⟨added, start, ended⟩ :=
    reached_processItem grammar config tokens position index state item
  refine ⟨?_, fun _ => processItem_ok⟩
  rw [ended]
  exact grown.putAll fun entry early => reasons entry (start.subset early)

end Process

/-- Links at and behind a position do not disturb what was processed, as long as the sets before it
stay as they are. -/
theorem Processed.mono {sets others : Array ChartSet} {position : Nat} {done : List Item}
    (processed : Processed grammar tokens sets position done)
    (grounded : ∀ item ∈ done, Grounded grammar tokens sets position item)
    (same : ∀ earlier < position, setAt others earlier = setAt sets earlier)
    (covers : CoversLinks sets others) : Processed grammar tokens others position done := by
  constructor
  · intro waiter member symbol rule next known
    exact covers _ _ (processed.predicts waiter member symbol rule next known)
  · intro item member terminal token next found accepted
    exact covers _ _ (processed.scans item member terminal token next found accepted)
  · intro split child symbol waiter member known waiting next
    have ordered : split ≤ position := (grounded _ member).ordered
    apply covers
    apply processed.completes split child symbol waiter member known ?_ next
    by_cases here : split = position
    · simpa only [here, ite_true] using waiting
    · simpa only [here, ite_false, same split (by omega)] using waiting

theorem Processed.nil (sets : Array ChartSet) (position : Nat) :
    Processed grammar tokens sets position [] :=
  ⟨by simp, by simp, by simp⟩

theorem Processed.next {state : ChartState} (grown : Grown grammar tokens state) {position : Nat}
    {done rest : List Item} {item : Item}
    (processed : Processed grammar tokens state.sets position done)
    (items : (setAt state.sets position).items = done ++ item :: rest) :
    Processed grammar tokens (state.process grammar tokens position done.length item).sets position
      (done ++ [item]) := by
  have sound := grown.sound
  have inside : ∀ other ∈ done ++ [item], other ∈ (setAt state.sets position).items := by
    intro other member
    rw [items, ← List.singleton_append, ← List.append_assoc]
    exact List.mem_append_left _ member
  have past : state.past position done.length position = done := by
    simp [ChartState.past_eq, items]
  have before : Processed grammar tokens
      (state.process grammar tokens position done.length item).sets position done :=
    processed.mono (fun other known => sound.grounded _ _ (inside other (List.mem_append_left _ known)))
      (fun _ => ChartState.setAt_process) coversLinks_process
  constructor
  · intro waiter waiting symbol rule next known
    rcases List.mem_append.mp waiting with early | last
    · exact before.predicts waiter early symbol rule next known
    · obtain rfl := List.mem_singleton.mp last
      exact predicted_process next known
  · intro other waiting terminal token next found accepted
    rcases List.mem_append.mp waiting with early | last
    · exact before.scans other early terminal token next found accepted
    · obtain rfl := List.mem_singleton.mp last
      exact scanned_process next found accepted
  · intro split child symbol waiter complete known waiting next
    have ordered : split ≤ position := (sound.grounded _ _ (inside _ complete)).ordered
    rcases List.mem_append.mp complete with early | last
    · by_cases late : split = position ∧ waiter = item
      · obtain ⟨rfl, rfl⟩ := late
        exact completed_process_waiter sound next known (past.symm ▸ early)
      · apply before.completes split child symbol waiter early known ?_ next
        by_cases here : split = position
        · have other : waiter ≠ item := fun same => late ⟨here, same⟩
          simpa [here, other] using waiting
        · rw [if_neg here] at waiting ⊢
          exact waiting
    · obtain rfl := List.mem_singleton.mp last
      apply completed_process_child next known
      by_cases here : split = position
      · subst here
        have other : waiter ≠ Item.whole grammar child split := by
          intro same
          rw [same, Item.next_whole] at next
          cases next
        rw [past]
        simpa [other] using waiting
      · rw [ChartState.past_eq, if_neg here]
        rwa [if_neg here, ChartState.setAt_process (by omega)] at waiting

end Readings
