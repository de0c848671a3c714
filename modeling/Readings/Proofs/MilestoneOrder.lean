import Readings.Derivation.Extraction
import Readings.Proofs.ChartConstruction
import Readings.Proofs.Postorder
import Readings.Proofs.UnitCycles
import Mathlib.Data.Prod.Lex

/-! Extraction never asks for a milestone while it is being found. From a milestone to its sources the
span shrinks; or it stays and the rule is replaced by one along a unit edge; or the dot moves back over
an element that derives nothing. Ranks along the unit edges make this a weight that falls. -/

namespace Readings

variable {grammar : Grammar} {tokens : Array Token} {rank : Symbol → Nat} {bound : Nat}

section
variable (grammar : Grammar) (rank : Symbol → Nat) (bound : Nat)

/-- The rank of the rule of an item, as long as nothing behind the dot takes a token. -/
def Item.restRank (item : Item) : Nat :=
  if ((grammar.rhs item.rule).drop item.dot).all
      (Element.isNullable (nullableSymbols grammar.rules.toList)) then
    ((grammar.lhs? item.rule).map rank).getD bound
  else bound

/-- The span of a milestone, then the rank of its rule, then its dot. -/
def Milestone.weight (milestone : Milestone) : Nat ×ₗ Nat ×ₗ Nat :=
  toLex (milestone.position - milestone.item.origin,
    toLex (milestone.item.restRank grammar rank bound, milestone.item.dot))

end

def Chart.milestones (chart : Chart) : List Milestone :=
  chart.sets.toList.zipIdx.flatMap fun (set, position) => set.items.map (Milestone.mk position)

theorem Chart.length_milestones (chart : Chart) : chart.milestones.length = chart.totalItems := by
  simp only [milestones, totalItems, List.length_flatMap, List.length_map, ChartSet.length_items]
  rw [show (fun entry : ChartSet × Nat => entry.1.size) = ChartSet.size ∘ Prod.fst from rfl,
    ← List.map_map, List.zipIdx_map_fst, List.sum_eq_foldr]

theorem Chart.mem_milestones {chart : Chart} {milestone : Milestone} :
    milestone ∈ chart.milestones ↔
      milestone.item ∈ (setAt chart.sets milestone.position).items := by
  obtain ⟨position, item⟩ := milestone
  simp only [milestones, List.mem_flatMap, Prod.exists, List.mk_mem_zipIdx_iff_getElem?,
    Array.getElem?_toList, List.mem_map, Milestone.mk.injEq, setAt, Array.getD_eq_getD_getElem?]
  constructor
  · intro listed
    obtain ⟨set, index, found, other, member, rfl, rfl⟩ := listed
    simpa [found] using member
  · intro member
    cases found : chart.sets[position]? with
    | none => simp [found] at member
    | some set => exact ⟨set, position, found, item, by simpa [found] using member, rfl, rfl⟩

theorem Grounded.nullable_whole {sets : Array ChartSet} {position : Nat} {rule : RuleId}
    {symbol : Symbol} (grounded : Grounded grammar tokens sets position (Item.whole grammar rule position))
    (known : grammar.lhs? rule = some symbol) :
    (Element.nonTerminal symbol).isNullable (nullableSymbols grammar.rules.toList) = true := by
  obtain ⟨_, derived⟩ := grounded.derives known
  exact derived.isNullable rfl

private theorem restRank_whole {rule : RuleId} {symbol : Symbol} (origin : Nat)
    (known : grammar.lhs? rule = some symbol) :
    (Item.whole grammar rule origin).restRank grammar rank bound = rank symbol := by
  simp [Item.restRank, Item.whole, known]

private theorem restRank_behind (item : Item) :
    item.advance.restRank grammar rank bound =
      if ((grammar.rhs item.rule).drop (item.dot + 1)).all
          (Element.isNullable (nullableSymbols grammar.rules.toList)) then
        ((grammar.lhs? item.rule).map rank).getD bound
      else bound := rfl

private theorem restRank_advance {item : Item} {element : Element}
    (next : item.next? grammar = some element)
    (empty : element.isNullable (nullableSymbols grammar.rules.toList) = true) :
    item.advance.restRank grammar rank bound = item.restRank grammar rank bound := by
  rw [restRank_behind, Item.restRank, Item.drop_of_next next, List.all_cons, empty, Bool.true_and]

private theorem rank_lt_restRank (ranked : Ranked grammar.rules.toList rank bound) {item : Item}
    {symbol : Symbol} (next : item.next? grammar = some (.nonTerminal symbol))
    (known : ∃ lhs, grammar.lhs? item.rule = some lhs)
    (before : ((grammar.rhs item.rule).take item.dot).all
      (Element.isNullable (nullableSymbols grammar.rules.toList)) = true) :
    rank symbol < item.advance.restRank grammar rank bound := by
  obtain ⟨lhs, known⟩ := known
  obtain ⟨rule, found, rfl, same⟩ := Grammar.rule_of_lhs known
  rw [restRank_behind]
  split
  next behind =>
    simp only [known, Option.map_some, Option.getD_some]
    apply ranked.falls
    have shape : rule.rhs = (grammar.rhs item.rule).take item.dot ++
        .nonTerminal symbol :: (grammar.rhs item.rule).drop (item.dot + 1) := by
      rw [← Item.drop_of_next next, List.take_append_drop, same]
    exact mem_unitTargets (by simpa using Array.mem_of_getElem? found) shape before behind
  next => exact ranked.below symbol

theorem Milestone.weight_lt_iff {source milestone : Milestone} :
    source.weight grammar rank bound < milestone.weight grammar rank bound ↔
      source.position - source.item.origin < milestone.position - milestone.item.origin ∨
        source.position - source.item.origin = milestone.position - milestone.item.origin ∧
          (source.item.restRank grammar rank bound < milestone.item.restRank grammar rank bound ∨
            source.item.restRank grammar rank bound = milestone.item.restRank grammar rank bound ∧
              source.item.dot < milestone.item.dot) := by
  simp only [weight, Prod.Lex.toLex_lt_toLex]

private theorem scanned_lighter {item : Item} {position : Nat} (ordered : item.origin ≤ position) :
    (Milestone.mk position item).weight grammar rank bound <
      (Milestone.mk (position + 1) item.advance).weight grammar rank bound := by
  rw [Milestone.weight_lt_iff]
  left
  simp only [Item.advance]
  omega

/-- A completion in front of the dot makes the span longer, or derives nothing and moves the dot. -/
private theorem waiter_lighter {sets : Array ChartSet} {split position : Nat} {waiter : Item}
    {child : RuleId} {symbol : Symbol} (early : Grounded grammar tokens sets split waiter)
    (whole : Grounded grammar tokens sets position (Item.whole grammar child split))
    (next : waiter.next? grammar = some (.nonTerminal symbol)) (known : grammar.lhs? child = some symbol) :
    (Milestone.mk split waiter).weight grammar rank bound <
      (Milestone.mk position waiter.advance).weight grammar rank bound := by
  have ordered := early.ordered
  have later : split ≤ position := whole.ordered
  rw [Milestone.weight_lt_iff]
  by_cases shorter : split < position
  · left
    simp only [Item.advance]
    omega
  · obtain rfl : split = position := by omega
    have same : waiter.advance.restRank grammar rank bound = waiter.restRank grammar rank bound :=
      restRank_advance next (whole.nullable_whole known)
    exact Or.inr ⟨rfl, Or.inr ⟨same.symm, Nat.lt_succ_self _⟩⟩

/-- A completion is shorter than what it is a part of, or it is the only part and its rank is lower. -/
private theorem child_lighter (ranked : Ranked grammar.rules.toList rank bound) {sets : Array ChartSet}
    {split position : Nat} {waiter : Item} {child : RuleId} {symbol : Symbol}
    (early : Grounded grammar tokens sets split waiter)
    (whole : Grounded grammar tokens sets position (Item.whole grammar child split))
    (next : waiter.next? grammar = some (.nonTerminal symbol)) (known : grammar.lhs? child = some symbol) :
    (Milestone.mk position (Item.whole grammar child split)).weight grammar rank bound <
      (Milestone.mk position waiter.advance).weight grammar rank bound := by
  have ordered := early.ordered
  have later : split ≤ position := whole.ordered
  rw [Milestone.weight_lt_iff, restRank_whole _ known]
  by_cases shorter : waiter.origin < split
  · left
    simp only [Item.advance, Item.whole]
    omega
  · obtain rfl : waiter.origin = split := by omega
    obtain ⟨children, derived⟩ := early.derived
    have lower := rank_lt_restRank ranked next early.known (derived.all_isNullable rfl)
    exact Or.inr ⟨rfl, Or.inl lower⟩

theorem Sound.sources_lighter {chart : Chart} (sound : Sound grammar tokens chart.sets)
    (ranked : Ranked grammar.rules.toList rank bound) {milestone source : Milestone}
    (member : milestone ∈ chart.milestones) (leads : source ∈ chart.sources grammar milestone) :
    source ∈ chart.milestones ∧ source.weight grammar rank bound < milestone.weight grammar rank bound := by
  obtain ⟨position, item⟩ := milestone
  simp only [Chart.sources] at leads
  split at leads
  next => exact absurd leads List.not_mem_nil
  next moved =>
    obtain ⟨link, linked, made⟩ := List.mem_flatMap.mp leads
    rw [Chart.links_eq] at linked
    rw [Chart.mem_milestones]
    cases sound.justified position item link linked with
    | predicted known wanted => exact absurd made List.not_mem_nil
    | scanned inside next found accepted =>
      obtain rfl := List.mem_singleton.mp made
      exact ⟨inside, scanned_lighter (sound.grounded _ _ inside).ordered⟩
    | completed waiting next known done =>
      have early := sound.grounded _ _ waiting
      have whole := sound.grounded _ _ done
      rcases List.mem_cons.mp made with rfl | last
      · exact ⟨waiting, waiter_lighter early whole next known⟩
      · obtain rfl := List.mem_singleton.mp last
        exact ⟨done, child_lighter ranked early whole next known⟩

end Readings
