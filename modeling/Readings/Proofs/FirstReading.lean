import Readings.Proofs.Extraction
import Readings.Proofs.Filing

/-! The first reading applies one rule at every place, to the same children, however often the place comes
up in it. For the first child list of an item ends with the first of its links, and that reports the
rule of the symbol that was completed first over its span. -/

namespace Readings

variable {grammar : Grammar} {tokens : Array Token} {chart : Chart}
  {lists : Milestone → List (List Tree)}

theorem head?_pairs {α β γ : Type} {combine : α → β → γ} {firsts : List α} {seconds : List β} {made : γ}
    (head : (pairs combine firsts seconds).head? = some made) :
    ∃ first second, firsts.head? = some first ∧ seconds.head? = some second ∧
      combine first second = made := by
  cases firsts with
  | nil => cases head
  | cons first firsts =>
    cases seconds with
    | nil =>
      obtain ⟨_, _, _, absurd, _⟩ := mem_pairs.mp (List.mem_of_mem_head? head)
      cases absurd
    | cons second seconds => exact ⟨first, second, rfl, rfl, by simpa [pairs] using head⟩

namespace Extraction

/-- The first tree over a span for a symbol: by the rule that was completed first, with the first
children. -/
def firstTree? (chart : Chart) (grammar : Grammar) (lists : Milestone → List (List Tree))
    (slot : Slot) : Option Derivation :=
  match (completedRules grammar slot.symbol slot.span.start
    (setAt chart.sets slot.span.stop).items).head? with
  | some rule =>
    (treesOf grammar lists (Milestone.complete grammar rule slot.span.start slot.span.stop)).head?
  | none => none

def IsFirst (chart : Chart) (grammar : Grammar) (lists : Milestone → List (List Tree))
    (trees : List Tree) : Prop :=
  ∀ node ∈ Tree.nodesOf trees, firstTree? chart grammar lists node.slot = some node

theorem IsFirst.append {first rest : List Tree} (early : IsFirst chart grammar lists first)
    (late : IsFirst chart grammar lists rest) : IsFirst chart grammar lists (first ++ rest) := by
  intro node member
  obtain ⟨tree, inside, below⟩ := Tree.mem_nodesOf.mp member
  rcases List.mem_append.mp inside with here | there
  · exact early node (Tree.mem_nodesOf.mpr ⟨tree, here, below⟩)
  · exact late node (Tree.mem_nodesOf.mpr ⟨tree, there, below⟩)

theorem isFirst_tree {symbol : Symbol} {rule : RuleId} {start stop : Nat} {derivation : Derivation}
    (known : grammar.lhs? rule = some symbol)
    (first : (completedRules grammar symbol start (setAt chart.sets stop).items).head? = some rule)
    (head : (treesOf grammar lists (Milestone.complete grammar rule start stop)).head? = some derivation)
    (below : ∀ children, (lists (Milestone.complete grammar rule start stop)).head? = some children →
      IsFirst chart grammar lists children) :
    IsFirst chart grammar lists [derivation.tree] := by
  obtain ⟨children, top, rfl⟩ : ∃ children,
      (lists (Milestone.complete grammar rule start stop)).head? = some children ∧
        ⟨rule, symbol, ⟨start, stop⟩, children⟩ = derivation := by
    simpa only [treesOf, Milestone.complete, known, List.head?_map, Option.map_eq_some_iff] using head
  intro node member
  simp only [Tree.nodesOf, Derivation.tree, Tree.nodes, List.append_nil, List.mem_cons] at member
  rcases member with rfl | deeper
  · simpa only [firstTree?, Derivation.slot, first] using head
  · exact below children top node deeper

end Extraction

open Extraction

/-- The first link to an item that moved over a symbol reports the rule completed first. -/
theorem Saturated.completed_first (saturated : Saturated grammar tokens chart.sets) {position split : Nat}
    {waiter : Item} {symbol : Symbol} {child : RuleId} {links : List Link}
    (waiting : waiter ∈ (setAt chart.sets split).items)
    (next : waiter.next? grammar = some (.nonTerminal symbol)) (ordered : split ≤ position)
    (first : (setAt chart.sets position).links waiter.advance = .completed split child :: links) :
    (completedRules grammar symbol split (setAt chart.sets position).items).head? = some child := by
  have same := saturated.inOrder position split ordered waiter symbol next
  have inside : waiter ∈ (if split = position then (setAt chart.sets position).items
      else (setAt chart.sets split).items) := by
    split
    next here => exact here ▸ waiting
    next => exact waiting
  rw [if_pos inside, first] at same
  rw [← same]
  simp [childrenFrom]

private theorem isFirst_advance (saturated : Saturated grammar tokens chart.sets) {position : Nat}
    {item : Item} {link : Link} {links : List Link}
    (first : (setAt chart.sets position).links item.advance = link :: links)
    (below : ∀ source ∈ Chart.linkSources grammar ⟨position, item.advance⟩ link, ∀ children,
      (lists source).head? = some children → IsFirst chart grammar lists children)
    {children : List Tree}
    (head : (linkLists grammar lists ⟨position, item.advance⟩ link).head? = some children) :
    IsFirst chart grammar lists children := by
  have linked : link ∈ (setAt chart.sets position).links item.advance := first ▸ List.mem_cons_self
  generalize place : item.advance = advanced at linked
  cases saturated.sound.justified _ _ _ linked with
  | predicted => cases place
  | @scanned before terminal token start inside next found accepted =>
    obtain rfl : item = before := Item.advance_injective place
    obtain ⟨front, last, early, only, rfl⟩ := head?_pairs head
    obtain rfl := Option.some.inj only
    exact (below _ List.mem_cons_self front early).append (by intro node member; cases member)
  | @completed waiter child symbol split _ waiting next known done =>
    obtain rfl : item = waiter := Item.advance_injective place
    obtain ⟨front, last, early, final, rfl⟩ := head?_pairs head
    have ordered : split ≤ position := (saturated.sound.grounded _ _ done).ordered
    refine (below _ List.mem_cons_self front early).append ?_
    exact isFirst_tree known (saturated.completed_first waiting next ordered first) final
      (below _ (List.mem_cons_of_mem _ List.mem_cons_self))

private theorem linkLists_ne_nil (sound : Sound grammar tokens chart.sets) {position : Nat} {item : Item}
    {link : Link} (linked : link ∈ (setAt chart.sets position).links item.advance)
    (some : ∀ source ∈ Chart.linkSources grammar ⟨position, item.advance⟩ link,
      0 < (lists source).length) :
    linkLists grammar lists ⟨position, item.advance⟩ link ≠ [] := by
  apply List.ne_nil_of_length_pos
  cases link with
  | predicted =>
    generalize place : item.advance = advanced at linked
    cases sound.justified _ _ _ linked with
    | predicted => cases place
  | scanned token =>
    exact Nat.lt_of_lt_of_le (some _ List.mem_cons_self)
      (length_le_linkLists sound linked some List.mem_cons_self)
  | completed split child =>
    exact Nat.lt_of_lt_of_le (some _ List.mem_cons_self)
      (length_le_linkLists sound linked some List.mem_cons_self)

theorem Collected.isFirst (saturated : Saturated grammar tokens chart.sets) {walk : Walk Milestone}
    (collected : Collected grammar tokens chart walk lists) :
    ∀ milestone ∈ walk.order.toList, ∀ children, (lists milestone).head? = some children →
      IsFirst chart grammar lists children := by
  refine collected.reaches.sorted.postordered.induction ?_
  intro milestone member below children head
  have solves := collected.solves milestone member
  have inside : ∀ source ∈ chart.sources grammar milestone, source ∈ walk.order.toList :=
    fun source leads => collected.reaches.sorted.postordered.closed member (Chart.leads_iff.mpr leads)
  obtain ⟨position, rule, dot, origin⟩ := milestone
  cases dot with
  | zero =>
    rw [solves] at head
    obtain rfl := Option.some.inj head
    intro node absurd
    cases absurd
  | succ dot =>
    rw [solves, show Item.mk rule (dot + 1) origin = Item.advance ⟨rule, dot, origin⟩ from rfl,
      fullLists_advance] at head
    have sources := sources_advance grammar chart position ⟨rule, dot, origin⟩
    cases first : (setAt chart.sets position).links (Item.advance ⟨rule, dot, origin⟩) with
    | nil => simp [first] at head
    | cons link links =>
      rw [first] at head sources
      have known : ∀ source ∈ Chart.linkSources grammar ⟨position, Item.advance ⟨rule, dot, origin⟩⟩ link,
          source ∈ chart.sources grammar ⟨position, Item.advance ⟨rule, dot, origin⟩⟩ := by
        intro source leads
        rw [sources]
        exact List.mem_append_left _ leads
      have made : linkLists grammar lists ⟨position, Item.advance ⟨rule, dot, origin⟩⟩ link ≠ [] := by
        apply linkLists_ne_nil saturated.sound (first ▸ List.mem_cons_self)
        intro source leads
        have there := inside source (known source leads)
        exact (collected.exact source there).length_pos saturated.sound (collected.known source there)
      rw [List.flatMap_cons, List.head?_append_of_ne_nil _ made] at head
      exact isFirst_advance saturated first
        (fun source leads => below source (Chart.leads_iff.mpr (known source leads))) head

/-- Every place has one application at most. -/
def Derivation.IsUniform (derivation : Derivation) : Prop :=
  ∀ node ∈ derivation.nodes, ∀ other ∈ derivation.nodes, node.slot = other.slot → node = other

private theorem completedRules_goals (chart : Chart) (grammar : Grammar) :
    completedRules grammar chart.start 0 (setAt chart.sets chart.tokenCount).items =
      (chart.goals grammar).map (·.item.rule) := by
  rw [completedRules, ← Chart.acceptingItems_eq, Chart.goals, List.map_map]
  rfl

theorem Collected.uniform_first (saturated : Saturated grammar tokens chart.sets)
    (start : chart.start = grammar.start) (count : chart.tokenCount = tokens.size)
    {walk : Walk Milestone} (collected : Collected grammar tokens chart walk lists) {reading : Derivation}
    (head : (readingsOf chart grammar lists).head? = some reading) : reading.IsUniform := by
  have rules := completedRules_goals chart grammar
  rw [start, count] at rules
  cases goals : chart.goals grammar with
  | nil => simp [readingsOf, goals] at head
  | cons goal rest =>
    have member : goal ∈ chart.goals grammar := goals ▸ List.mem_cons_self
    obtain ⟨whole, -, known⟩ := (mem_goals_iff saturated.sound start count).mp member
    have inside := collected.reaches.covers member
    have some : treesOf grammar lists goal ≠ [] := by
      apply List.ne_nil_of_length_pos
      rw [length_treesOf known]
      exact (collected.exact goal inside).length_pos saturated.sound (collected.known goal inside)
    rw [readingsOf, goals, List.flatMap_cons, List.head?_append_of_ne_nil _ some] at head
    have first : (completedRules grammar grammar.start 0 (setAt chart.sets tokens.size).items).head? =
        .some goal.item.rule := by rw [rules, goals, List.map_cons, List.head?_cons]
    have complete : goal = Milestone.complete grammar goal.item.rule 0 tokens.size := whole
    have below := collected.isFirst saturated goal inside
    rw [complete] at head below
    have all := isFirst_tree known first head below
    intro node here other there same
    have own := all node (Tree.mem_nodesOf.mpr ⟨_, List.mem_cons_self, here⟩)
    have again := all other (Tree.mem_nodesOf.mpr ⟨_, List.mem_cons_self, there⟩)
    exact Option.some.inj (own.symm.trans (same ▸ again))

/-- What extraction selects from a chart: different readings, no more than the limit, the first of them
uniform, and some exactly if the parse was a success. -/
structure Chart.Selects (grammar : Grammar) (tokens : Array Token) (chart : Chart) (limit : Nat)
    (selection : Selection) : Prop where
  extracted : chart.extract grammar limit = .ok selection
  readings : ∀ derivation ∈ selection.derivations, IsReading grammar tokens derivation
  distinct : selection.derivations.Nodup
  short : selection.derivations.length ≤ max limit 1
  uniform : ∀ first, selection.derivations.head? = some first → first.IsUniform
  some_iff : selection.derivations ≠ [] ↔ chart.outcome = .success

theorem Chart.exists_selects (acyclic : unitCycle? grammar.rules.toList = none) (config : ChartConfig)
    (tokens : Array Token) (limit : Nat) :
    ∃ selection, (Chart.build grammar config tokens).Selects grammar tokens limit selection := by
  by_cases success : (Chart.build grammar config tokens).outcome = .success
  · obtain ⟨saturated, verdict⟩ := Chart.build_saturated (Chart.within_of_success success)
    obtain ⟨walk, lists, walked, collected⟩ := saturated.exists_collected acyclic
    have mem_iff : ∀ derivation, derivation ∈ readingsOf _ grammar lists ↔ _ :=
      fun derivation => collected.mem_readings_iff saturated rfl rfl
    have extracted := collected.extract_eq saturated.sound success walked limit
    obtain ⟨reading, known⟩ := (verdict.success_iff saturated).mp success
    have positive := List.length_pos_of_mem ((mem_iff reading).mpr known)
    refine ⟨_, extracted, ?_, ?_, ?_, ?_, iff_of_true ?_ success⟩
    · exact fun derivation member => (mem_iff derivation).mp (List.mem_of_mem_take member)
    · exact List.Nodup.sublist (List.take_sublist _ _) (collected.nodup_readings saturated.sound rfl rfl)
    · exact List.length_take_le _ _
    · intro first head
      rw [List.head?_take, if_neg (by omega)] at head
      exact collected.uniform_first saturated rfl rfl head
    · apply List.ne_nil_of_length_pos
      rw [List.length_take]
      omega
  · have none : ¬ Selection.none.derivations ≠ [] := fun some => some rfl
    refine ⟨_, Chart.extract_of_failure success limit, ?_, List.nodup_nil, Nat.zero_le _, ?_,
      iff_of_false none success⟩
    · exact fun derivation member => absurd member List.not_mem_nil
    · intro first head
      cases head

/-- If something was extracted and nothing was left out, it is all readings. -/
theorem Chart.Selects.complete {config : ChartConfig} {limit : Nat} {selection : Selection}
    (acyclic : unitCycle? grammar.rules.toList = none)
    (selects : (Chart.build grammar config tokens).Selects grammar tokens limit selection)
    (some : selection.derivations ≠ []) (whole : selection.truncated = false) {derivation : Derivation}
    (reading : IsReading grammar tokens derivation) : derivation ∈ selection.derivations := by
  obtain ⟨readings, -, mem_iff, extracted⟩ := Chart.exists_readings acyclic (selects.some_iff.mp some)
  obtain rfl := Except.ok.inj (selects.extracted.symm.trans (extracted limit))
  have few : readings.length ≤ max limit 1 := Nat.le_of_not_lt (of_decide_eq_false whole)
  rw [List.take_of_length_le few]
  exact (mem_iff derivation).mpr reading

end Readings
