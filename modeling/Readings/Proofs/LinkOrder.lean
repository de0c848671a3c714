import Readings.Proofs.ChartClosure
import Mathlib.Data.List.Nodup

/-! The order of links. An item that waits takes its completions in the order in which they were found: the
empty ones in its past when it is processed itself, all others when they are. So of all that wait at
one place for one symbol, each has the same completions in the same order. -/

namespace Readings

def childrenFrom (split : Nat) (links : List Link) : List RuleId :=
  links.filterMap fun
    | .completed start child => if start = split then some child else none
    | _ => none

section
variable (grammar : Grammar)

def completedRules (symbol : Symbol) (origin : Nat) (items : List Item) : List RuleId :=
  (items.filter fun item => item.origin == origin && item.yields grammar symbol).map (·.rule)

/-- Items that wait have taken, in their order, the completions among those processed. -/
def InOrder (sets : Array ChartSet) (position : Nat) (done : List Item) : Prop :=
  ∀ split ≤ position, ∀ waiter symbol, waiter.next? grammar = some (.nonTerminal symbol) →
    childrenFrom split ((setAt sets position).links waiter.advance) =
      if waiter ∈ (if split = position then done else (setAt sets split).items) then
        completedRules grammar symbol split done
      else []

end

variable {grammar : Grammar} {tokens : Array Token}

theorem childrenFrom_append (split : Nat) (links more : List Link) :
    childrenFrom split (links ++ more) = childrenFrom split links ++ childrenFrom split more :=
  List.filterMap_append

theorem mem_childrenFrom {split : Nat} {links : List Link} {child : RuleId} :
    child ∈ childrenFrom split links ↔ .completed split child ∈ links := by
  simp only [childrenFrom, List.mem_filterMap]
  constructor
  · intro found
    obtain ⟨link, member, same⟩ := found
    cases link <;> simp_all
  · exact fun member => ⟨_, member, if_pos rfl⟩

theorem childrenFrom_completed (split start : Nat) (children : List RuleId) :
    childrenFrom split (children.map (.completed start)) = if start = split then children else [] := by
  induction children with
  | nil => simp [childrenFrom]
  | cons child children ih =>
    have parts := childrenFrom_append split [.completed start child] (children.map (.completed start))
    rw [List.map_cons, ← List.singleton_append, parts, ih]
    by_cases same : start = split <;> simp [childrenFrom, same]

/-- Links that report something new are all noted. -/
theorem childrenFrom_noteLinks {split : Nat} {links added : List Link}
    (fresh : (childrenFrom split links ++ childrenFrom split added).Nodup) :
    childrenFrom split (added.foldl ChartSet.noteLink links) =
      childrenFrom split links ++ childrenFrom split added := by
  induction added generalizing links with
  | nil => simp [childrenFrom]
  | cons link added ih =>
    have parts : childrenFrom split (link :: added) =
        childrenFrom split [link] ++ childrenFrom split added := childrenFrom_append split [link] added
    rw [parts, ← List.append_assoc] at fresh ⊢
    have noted : childrenFrom split (ChartSet.noteLink links link) =
        childrenFrom split links ++ childrenFrom split [link] := by
      simp only [ChartSet.noteLink, List.contains_iff_mem]
      split
      next known =>
        suffices none : childrenFrom split [link] = [] by rw [none, List.append_nil]
        apply List.eq_nil_iff_forall_not_mem.mpr
        intro child member
        have again := List.mem_singleton.mp (mem_childrenFrom.mp member)
        have there := mem_childrenFrom.mpr (again ▸ known)
        exact (List.nodup_append.mp (List.nodup_append.mp fresh).1).2.2 child there child member rfl
      next => exact childrenFrom_append split links [link]
    rw [List.foldl_cons, ih (noted ▸ fresh), noted]

theorem links_putAll (position : Nat) (state : ChartState) (entries : List (Item × Link))
    (item : Item) :
    (setAt (entries.foldl (ChartState.put position) state).sets position).links item =
      ((entries.filter (·.1 == item)).map (·.2)).foldl ChartSet.noteLink
        ((setAt state.sets position).links item) := by
  induction entries generalizing state with
  | nil => rfl
  | cons entry entries ih =>
    rw [List.foldl_cons, ih, ChartState.setAt_put, if_pos rfl, ChartSet.links_insert]
    by_cases same : item = entry.1
    · simp [same]
    · simp [same, Ne.symm same]

theorem completedRules_concat (symbol : Symbol) (origin : Nat) (items : List Item) (item : Item) :
    completedRules grammar symbol origin (items ++ [item]) =
      completedRules grammar symbol origin items ++
        if item.origin = origin ∧ item.yields grammar symbol = true then [item.rule] else [] := by
  simp only [completedRules, List.filter_append, List.map_append]
  by_cases here : item.origin = origin ∧ item.yields grammar symbol = true
  · simp [here]
  · rw [if_neg here]
    simp only [not_and_or] at here
    rcases here with other | other <;> simp [other]

theorem nodup_completedRules {sets : Array ChartSet} {position : Nat} {items : List Item}
    (distinct : items.Nodup) (grounded : ∀ item ∈ items, Grounded grammar tokens sets position item)
    (symbol : Symbol) (origin : Nat) : (completedRules grammar symbol origin items).Nodup := by
  apply List.Nodup.map_on ?_ (distinct.filter _)
  intro item member other known same
  obtain ⟨first, yields⟩ := List.mem_filter.mp member
  obtain ⟨second, otherwise⟩ := List.mem_filter.mp known
  simp only [Bool.and_eq_true, beq_iff_eq] at yields otherwise
  have whole := ((grounded item first).yields_iff.mp yields.2).1
  have otherWhole := ((grounded other second).yields_iff.mp otherwise.2).1
  rw [whole, otherWhole, same, yields.1, otherwise.1]

private theorem filter_eq_of_nodup {items : List Item} (distinct : items.Nodup) (item : Item) :
    items.filter (· == item) = if item ∈ items then [item] else [] := by
  split
  next member => rw [List.filter_beq, List.count_eq_one_of_mem distinct member, List.replicate_one]
  next absent => rw [List.filter_beq, List.count_eq_zero_of_not_mem absent, List.replicate_zero]

theorem Item.advance_injective {item other : Item} (same : item.advance = other.advance) :
    item = other := by
  cases item
  cases other
  simpa [Item.advance] using same

private theorem filter_advance {items : List Item} (distinct : items.Nodup) (waiter : Item)
    (link : Item → Link) :
    ((items.map fun item => (item.advance, link item)).filter (·.1 == waiter.advance)).map (·.2) =
      if waiter ∈ items then [link waiter] else [] := by
  have advanced : (fun item : Item => item.advance == waiter.advance) = (· == waiter) := by
    funext item
    rw [Bool.eq_iff_iff, beq_iff_eq, beq_iff_eq]
    exact ⟨Item.advance_injective, congrArg Item.advance⟩
  rw [List.filter_map, List.map_map]
  simp only [Function.comp_def, advanced, filter_eq_of_nodup distinct]
  split <;> rfl

section Process
variable {state : ChartState} {position index : Nat} {item waiter : Item}

/-- A completion adds itself to the links of everything in its past that waits for it. -/
private theorem childrenFrom_completions {child : RuleId} {start : Nat} {own symbol : Symbol}
    (distinct : (state.past position index start).Nodup) (known : grammar.lhs? child = some own)
    (next : waiter.next? grammar = some (.nonTerminal symbol)) (split : Nat) :
    childrenFrom split (((completions grammar state position index (Item.whole grammar child start)).filter
        (·.1 == waiter.advance)).map (·.2)) =
      if start = split ∧ own = symbol ∧ waiter ∈ state.past position index start then [child] else [] := by
  have single := childrenFrom_completed split start [child]
  simp only [completions, Item.whole, known]
  rw [filter_advance (distinct.filter _) waiter fun _ => .completed start child]
  simp only [List.mem_filter, Item.waitsFor_iff, next, Option.some.injEq, Element.nonTerminal.injEq]
  by_cases waits : waiter ∈ state.past position index start ∧ symbol = own
  · rw [if_pos waits, ← List.map_singleton, single]
    simp [waits]
  · rw [if_neg waits, if_neg fun all => waits ⟨all.2.2, all.2.1.symm⟩]
    rfl

private theorem childrenFrom_predictions {own : Symbol} (split : Nat) :
    childrenFrom split (((predictions grammar state position index item own).filter
        (·.1 == waiter.advance)).map (·.2)) =
      if position = split ∧ waiter = item then
        completedRules grammar own position (state.past position index position)
      else [] := by
  have predicted : ∀ rules : List RuleId, childrenFrom split (((rules.map fun rule =>
      (Item.initial rule position, Link.predicted)).filter (·.1 == waiter.advance)).map (·.2)) = [] := by
    intro rules
    induction rules with
    | nil => rfl
    | cons rule rules ih => simpa [Item.initial, Item.advance] using ih
  simp only [predictions, List.filter_append, List.map_append, childrenFrom_append, predicted,
    List.nil_append]
  by_cases same : waiter = item
  · subst same
    simp only [List.filter_map, Function.comp_def, beq_self_eq_true, List.filter_true, List.map_map, and_true]
    rw [← childrenFrom_completed split position, completedRules, List.map_map]
    rfl
  · have other : (fun earlier : Item => item.advance == waiter.advance) = fun _ => false := by
      funext
      exact beq_eq_false_iff_ne.mpr fun equal => same (Item.advance_injective equal).symm
    simp only [List.filter_map, Function.comp_def, other, List.filter_false, same, and_false, ite_false]
    rfl

end Process

def Unreported (sets : Array ChartSet) (position : Nat) : Prop :=
  ∀ split item, childrenFrom split ((setAt sets position).links item) = []

theorem InOrder.nil {sets : Array ChartSet} {position : Nat} (unreported : Unreported sets position) :
    InOrder grammar sets position [] := by
  intro split _ waiter symbol _
  rw [unreported, completedRules, List.filter_nil, List.map_nil, ite_self]

section Next
variable {state : ChartState} {position : Nat} {done rest : List Item} {item : Item}

/-- What the links of an item that waits have to report when one more item is processed. -/
private def Reports (grammar : Grammar) (tokens : Array Token) (state : ChartState) (position : Nat)
    (done : List Item) (item waiter : Item) (symbol : Symbol) (split : Nat) : Prop :=
  ∃ added, (setAt (state.process grammar tokens position done.length item).sets position).links
      waiter.advance = added.foldl ChartSet.noteLink ((setAt state.sets position).links waiter.advance) ∧
    childrenFrom split ((setAt state.sets position).links waiter.advance) ++ childrenFrom split added =
      if waiter ∈ state.past position done.length split ∨ split = position ∧ waiter = item then
        completedRules grammar symbol split (done ++ [item])
      else []

private theorem completedRules_waiting (grounded : Grounded grammar tokens state.sets position item)
    {element : Element} (next : item.next? grammar = some element) (symbol : Symbol) (split : Nat) :
    completedRules grammar symbol split (done ++ [item]) = completedRules grammar symbol split done := by
  have incomplete : ¬ item.yields grammar symbol = true := by
    intro yields
    rw [(grounded.yields_iff.mp yields).1, Item.next_whole] at next
    cases next
  rw [completedRules_concat, if_neg fun all => incomplete all.2, List.append_nil]

variable (sound : Sound grammar tokens state.sets)
  (items : (setAt state.sets position).items = done ++ item :: rest) {waiter : Item} {symbol : Symbol}
  (next : waiter.next? grammar = some (.nonTerminal symbol)) {split : Nat}
  (old : childrenFrom split ((setAt state.sets position).links waiter.advance) =
    if waiter ∈ state.past position done.length split then completedRules grammar symbol split done
    else [])
include sound items next old

private theorem reports_complete (complete : item.next? grammar = none) :
    Reports grammar tokens state position done item waiter symbol split := by
  have grounded := sound.grounded position item (by simp [items])
  obtain ⟨own, known⟩ := grounded.known
  have other : waiter ≠ item := fun same => by simp [same, complete] at next
  have distinct : (state.past position done.length item.origin).Nodup := by
    rw [ChartState.past_eq]
    split
    · exact List.Nodup.sublist (List.take_sublist _ _) (sound.distinct _)
    · exact sound.distinct _
  have added := childrenFrom_completions distinct known next split
  rw [← grounded.eq_whole complete] at added
  have yields : item.yields grammar symbol = true ↔ own = symbol := by
    rw [grounded.yields_iff, known, Option.some.injEq]
    exact and_iff_right (grounded.eq_whole complete)
  refine ⟨_, by rw [ChartState.process, additions_complete complete, links_putAll], ?_⟩
  rw [added, old, completedRules_concat]
  by_cases waits : waiter ∈ state.past position done.length split
  · simp only [waits, true_or, ite_true]
    congr 1
    apply if_congr ?_ rfl rfl
    constructor
    · exact fun all => ⟨all.1, yields.mpr all.2.1⟩
    · exact fun all => ⟨all.1, yields.mp all.2, all.1 ▸ waits⟩
  · have late : ¬ (item.origin = split ∧ own = symbol ∧
        waiter ∈ state.past position done.length item.origin) := fun all => waits (all.1 ▸ all.2.2)
    simp only [waits, late, other, and_false, or_false, ite_false, List.append_nil]

private theorem reports_waiting {own : Symbol} (waits : item.next? grammar = some (.nonTerminal own)) :
    Reports grammar tokens state position done item waiter symbol split := by
  have grounded := sound.grounded position item (by simp [items])
  have distinct := items ▸ sound.distinct position
  have past : state.past position done.length position = done := by
    simp [ChartState.past_eq, items]
  refine ⟨_, by rw [ChartState.process, additions_nonTerminal waits, links_putAll], ?_⟩
  rw [childrenFrom_predictions, old, completedRules_waiting grounded waits, past]
  by_cases here : position = split ∧ waiter = item
  · obtain ⟨rfl, rfl⟩ := here
    obtain rfl : own = symbol := by simpa [waits] using next
    have fresh : waiter ∉ done := fun member =>
      (List.nodup_append.mp distinct).2.2 _ member _ List.mem_cons_self rfl
    simp [past, fresh]
  · have elsewhere : ¬ (split = position ∧ waiter = item) := fun all => here ⟨all.1.symm, all.2⟩
    simp only [here, elsewhere, ite_false, or_false, List.append_nil]

private theorem reports_scanning {terminal : Terminal}
    (scans : item.next? grammar = some (.terminal terminal)) :
    Reports grammar tokens state position done item waiter symbol split := by
  have grounded := sound.grounded position item (by simp [items])
  have other : waiter ≠ item := fun same => by simp [same, scans] at next
  refine ⟨[], ?_, ?_⟩
  · have elsewhere := Nat.ne_of_lt (Nat.lt_succ_self position)
    rw [ChartState.process, additions_terminal scans, ChartState.setAt_putAll_ne _ _ _ elsewhere]
    rfl
  · rw [old, completedRules_waiting grounded scans]
    simp [other, childrenFrom]

end Next

theorem InOrder.next {state : ChartState} (sound : Sound grammar tokens state.sets) {position : Nat}
    {done rest : List Item} {item : Item} (inOrder : InOrder grammar state.sets position done)
    (items : (setAt state.sets position).items = done ++ item :: rest) :
    InOrder grammar (state.process grammar tokens position done.length item).sets position
      (done ++ [item]) := by
  intro split ordered waiter symbol next
  have past : state.past position done.length split =
      if split = position then done else (setAt state.sets split).items := by
    rw [ChartState.past_eq]
    split
    next same => simp [same, items]
    next => rfl
  have waits : waiter ∈ (if split = position then done ++ [item] else
      (setAt (state.process grammar tokens position done.length item).sets split).items) ↔
      waiter ∈ state.past position done.length split ∨ split = position ∧ waiter = item := by
    rw [past]
    by_cases here : split = position
    · simp [here]
    · simp [here, ChartState.setAt_process (Nat.lt_of_le_of_ne ordered here)]
  have old := past.symm ▸ inOrder split ordered waiter symbol next
  obtain ⟨added, links, reports⟩ : Reports grammar tokens state position done item waiter symbol split := by
    cases kind : item.next? grammar with
    | none => exact reports_complete sound items next old kind
    | some element =>
      cases element with
      | nonTerminal own => exact reports_waiting sound items next old kind
      | terminal terminal => exact reports_scanning sound items next old kind
  have inside : done ++ [item] ⊆ (setAt state.sets position).items := by simp [items]
  have distinct : (done ++ [item]).Nodup := by
    apply List.Nodup.sublist ?_ (sound.distinct position)
    rw [items]
    exact (List.cons_sublist_cons.mpr (List.nil_sublist rest)).append_left done
  have fresh : (childrenFrom split ((setAt state.sets position).links waiter.advance) ++
      childrenFrom split added).Nodup := by
    rw [reports]
    split
    · exact nodup_completedRules distinct (fun other member => sound.grounded _ _ (inside member)) _ _
    · exact List.nodup_nil
  rw [links, childrenFrom_noteLinks fresh, reports]
  exact if_congr waits.symm rfl rfl

theorem InOrder.congr {sets others : Array ChartSet} {position : Nat} {done : List Item}
    (inOrder : InOrder grammar sets position done)
    (same : ∀ other ≤ position, setAt others other = setAt sets other) :
    InOrder grammar others position done := by
  intro split ordered waiter symbol next
  rw [same position (Nat.le_refl _), same split ordered]
  exact inOrder split ordered waiter symbol next

theorem Unreported.putAll {state : ChartState} {other : Nat} (unreported : Unreported state.sets other)
    (position : Nat) {entries : List (Item × Link)}
    (quiet : other = position → ∀ split, childrenFrom split (entries.map (·.2)) = []) :
    Unreported (entries.foldl (ChartState.put position) state).sets other := by
  intro split item
  by_cases here : other = position
  · subst here
    have none : childrenFrom split ((entries.filter (·.1 == item)).map (·.2)) = [] := by
      have all := quiet rfl split
      simp only [childrenFrom, List.filterMap_eq_nil_iff, List.mem_map] at all ⊢
      intro link made
      obtain ⟨entry, member, rfl⟩ := made
      exact all _ ⟨entry, List.mem_of_mem_filter member, rfl⟩
    rw [links_putAll, childrenFrom_noteLinks] <;> rw [unreported split item, none]
    · rfl
    · exact List.nodup_nil
  · rw [ChartState.setAt_putAll_ne _ _ _ here]
    exact unreported split item

/-- Behind the set that is processed there are only tokens in the links. -/
theorem Unreported.process {state : ChartState} {position later : Nat} (after : position < later)
    (unreported : Unreported state.sets later) (index : Nat) (item : Item) :
    Unreported (state.process grammar tokens position index item).sets later := by
  apply unreported.putAll
  intro here split
  cases next : item.next? grammar with
  | none =>
    rw [additions_complete next] at here
    omega
  | some element =>
    cases element with
    | nonTerminal symbol =>
      rw [additions_nonTerminal next] at here
      omega
    | terminal terminal =>
      rw [additions_terminal next]
      simp only [scans]
      split
      · split <;> rfl
      · rfl

end Readings
