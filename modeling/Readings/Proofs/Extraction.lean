import Readings.Proofs.CappedTable
import Readings.Proofs.ChildLists

/-! Extraction returns exactly the readings. The table that it fills follows the full lists, and these
never shrink on the way up, since no milestone of a chart is without child lists. -/

namespace Readings

variable {grammar : Grammar} {tokens : Array Token} {chart : Chart}
  {lists : Milestone → List (List Tree)}

namespace Extraction

private theorem trees_eq {table : Table} {limit : Nat} {milestone : Milestone}
    (known : table.childrenOf milestone = (lists milestone).take limit) :
    table.trees grammar milestone = (treesOf grammar lists milestone).take limit := by
  cases found : grammar.lhs? milestone.item.rule with
  | none => simp only [Table.trees, treesOf, found, List.take_nil]
  | some lhs => simp only [Table.trees, treesOf, found, known, List.map_take]

private theorem length_treesOf_le (milestone : Milestone) :
    (treesOf grammar lists milestone).length ≤ (lists milestone).length := by
  simp only [treesOf]
  split
  next => exact Nat.zero_le _
  next => exact Nat.le_of_eq (List.length_map ..)

private theorem offerLink_holds {table : Table} {limit : Nat} (positive : 0 < limit)
    {milestone : Milestone} {link : Link} {blame : Prop}
    (known : ∀ source ∈ Chart.linkSources grammar milestone link,
      table.childrenOf source = (lists source).take limit)
    (long : ∀ source ∈ Chart.linkSources grammar milestone link,
      limit < (lists source).length → blame)
    {found : Capped (List Tree)} {full : List (List Tree)} (holds : found.Holds limit blame full) :
    (table.offerLink grammar limit milestone found link).Holds limit blame
      (full ++ linkLists grammar lists milestone link) := by
  cases link with
  | predicted => simpa only [Table.offerLink, linkLists, List.append_nil] using holds
  | scanned token =>
    have short : ¬ limit < [Tree.leaf token].length := Nat.not_lt.mpr positive
    have offered := holds.offerProducts (fun first last => first ++ [last])
      (long _ List.mem_cons_self) fun more => absurd more short
    rw [List.take_of_length_le (show [Tree.leaf token].length ≤ limit from positive)] at offered
    simpa only [Table.offerLink, linkLists, known _ List.mem_cons_self] using offered
  | completed split child =>
    have child_known := known _ (List.mem_cons_of_mem _ List.mem_cons_self)
    have child_long := long _ (List.mem_cons_of_mem _ List.mem_cons_self)
    simp only [Table.offerLink, linkLists, known _ List.mem_cons_self, trees_eq child_known]
    apply holds.offerProducts _ (long _ List.mem_cons_self)
    intro more
    exact child_long (Nat.lt_of_lt_of_le more (length_treesOf_le _))

private theorem offerLinks_holds {table : Table} {limit : Nat} (positive : 0 < limit)
    {milestone : Milestone} {blame : Prop} (links : List Link)
    (known : ∀ source ∈ links.flatMap (Chart.linkSources grammar milestone),
      table.childrenOf source = (lists source).take limit)
    (long : ∀ source ∈ links.flatMap (Chart.linkSources grammar milestone),
      limit < (lists source).length → blame)
    {found : Capped (List Tree)} {full : List (List Tree)} (holds : found.Holds limit blame full) :
    (links.foldl (table.offerLink grammar limit milestone) found).Holds limit blame
      (full ++ links.flatMap (linkLists grammar lists milestone)) := by
  induction links generalizing found full with
  | nil => simpa using holds
  | cons link links ih =>
    simp only [List.flatMap_cons, List.forall_mem_append] at known long
    have first := offerLink_holds positive known.1 long.1 holds
    simpa only [List.foldl_cons, List.flatMap_cons, List.append_assoc] using
      ih known.2 long.2 first

theorem collect_holds {table : Table} {limit : Nat} (positive : 0 < limit) {milestone : Milestone}
    (known : ∀ source ∈ chart.sources grammar milestone,
      table.childrenOf source = (lists source).take limit) :
    (table.collect chart grammar limit milestone).Holds limit
      (∃ source ∈ chart.sources grammar milestone, limit < (lists source).length)
      (fullLists chart grammar lists milestone) := by
  simp only [Table.collect, fullLists]
  by_cases start : milestone.item.dot = 0
  · simp only [if_pos start]
    exact Capped.holds_singleton positive _ _
  · simp only [Chart.sources, if_neg start] at known ⊢
    exact offerLinks_holds positive _ known (fun source member more => ⟨source, member, more⟩)
      (Capped.holds_empty _ _)

private theorem Table.childrenOf_enter (table : Table) (limit : Nat) (milestone : Milestone) :
    (Table.enter chart grammar limit table milestone).childrenOf = fun other =>
      if milestone = other then (table.collect chart grammar limit milestone).values
      else table.childrenOf other := by
  funext other
  simp only [Table.enter, Table.childrenOf, Std.HashMap.getD_insert, beq_iff_eq]

private theorem follows_lists {limit : Nat} (positive : 0 < limit) {order : List Milestone}
    (ordered : Postordered (chart.sourceGraph grammar) order)
    (solves : ∀ milestone ∈ order, lists milestone = fullLists chart grammar lists milestone) :
    Follows lists limit order (order.foldl (Table.enter chart grammar limit) .empty).childrenOf
      (order.foldl (Table.enter chart grammar limit) .empty).cut := by
  apply follows_fold (fun table => table.collect chart grammar limit) ordered rfl
  · intro table milestone _
    exact Table.childrenOf_enter table limit milestone
  · intro table milestone _
    rfl
  · intro table milestone member next known below
    obtain rfl := Option.some.inj known
    rw [solves milestone member]
    exact collect_holds positive fun source leads => (below source leads).2

theorem length_le_linkLists (sound : Sound grammar tokens chart.sets) {position : Nat}
    {item : Item} {link : Link} {source : Milestone}
    (linked : link ∈ (setAt chart.sets position).links item)
    (some : ∀ other ∈ Chart.linkSources grammar ⟨position, item⟩ link, 0 < (lists other).length)
    (leads : source ∈ Chart.linkSources grammar ⟨position, item⟩ link) :
    (lists source).length ≤ (linkLists grammar lists ⟨position, item⟩ link).length := by
  cases link with
  | predicted => exact absurd leads List.not_mem_nil
  | scanned token =>
    obtain rfl := List.mem_singleton.mp leads
    simp only [linkLists, length_pairs, List.length_singleton, Nat.mul_one, Nat.le_refl]
  | completed split child =>
    have first := some _ List.mem_cons_self
    have second := some _ (List.mem_cons_of_mem _ List.mem_cons_self)
    obtain ⟨symbol, known⟩ : ∃ symbol, grammar.lhs? child = .some symbol := by
      cases sound.justified _ _ _ linked with
      | completed _ _ known _ => exact ⟨_, known⟩
    have many : (treesOf grammar lists (Milestone.complete grammar child split position)).length =
        (lists (Milestone.complete grammar child split position)).length := length_treesOf known
    rw [linkLists, length_pairs, many]
    rcases List.mem_cons.mp leads with rfl | other
    · exact Nat.le_mul_of_pos_right _ second
    · obtain rfl := List.mem_singleton.mp other
      exact Nat.le_mul_of_pos_left _ first

theorem length_le_of_source (sound : Sound grammar tokens chart.sets) {milestone source : Milestone}
    (solves : lists milestone = fullLists chart grammar lists milestone)
    (some : ∀ other ∈ chart.sources grammar milestone, 0 < (lists other).length)
    (leads : source ∈ chart.sources grammar milestone) :
    (lists source).length ≤ (lists milestone).length := by
  rw [solves, fullLists]
  simp only [Chart.sources] at some leads
  split at leads
  next => exact absurd leads List.not_mem_nil
  next moved =>
    rw [if_neg moved] at some ⊢
    obtain ⟨link, linked, inside⟩ := List.mem_flatMap.mp leads
    have here := length_le_linkLists sound (Chart.links_eq .. ▸ linked)
      (fun other member => some other (List.mem_flatMap.mpr ⟨link, linked, member⟩)) inside
    refine Nat.le_trans here (List.Sublist.length_le ?_)
    exact List.sublist_flatten_of_mem (List.mem_map_of_mem linked)

end Extraction

open Extraction

/-- The milestones of the readings of a whole input. -/
def Chart.goals (chart : Chart) (grammar : Grammar) : List Milestone :=
  (chart.acceptingItems grammar).map (Milestone.mk chart.tokenCount)

/-- A walk through all that the goals are made of, with the full lists of what it leaves. -/
structure Collected (grammar : Grammar) (tokens : Array Token) (chart : Chart) (walk : Walk Milestone)
    (lists : Milestone → List (List Tree)) : Prop where
  reaches : Walk.Reaches (chart.sourceGraph grammar) Walk.start (chart.goals grammar) walk
  solves : ∀ milestone ∈ walk.order.toList, lists milestone = fullLists chart grammar lists milestone
  exact : ∀ milestone ∈ walk.order.toList, Exact grammar tokens lists milestone
  known : ∀ milestone ∈ walk.order.toList, milestone ∈ chart.milestones

theorem Chart.acceptingItems_eq (chart : Chart) (grammar : Grammar) :
    chart.acceptingItems grammar = (setAt chart.sets chart.tokenCount).items.filter fun item =>
      item.origin == 0 && item.yields grammar chart.start := by
  simp only [Chart.acceptingItems, setAt, Array.getD_eq_getD_getElem?]
  split
  next set found => simp [found]
  next none => simp [none]

private theorem goals_inside (chart : Chart) (grammar : Grammar) :
    ∀ goal ∈ chart.goals grammar, goal ∈ chart.milestones := by
  intro goal member
  obtain ⟨item, accepting, rfl⟩ := List.mem_map.mp member
  rw [Chart.acceptingItems_eq] at accepting
  exact Chart.mem_milestones.mpr (List.mem_of_mem_filter accepting)

theorem Saturated.exists_collected (saturated : Saturated grammar tokens chart.sets)
    (acyclic : unitCycle? grammar.rules.toList = none) :
    ∃ walk lists, Walk.start.visitAll (chart.sourceGraph grammar) (chart.totalItems + 1)
      (chart.goals grammar) = .ok walk ∧ Collected grammar tokens chart walk lists := by
  obtain ⟨rank, bound, ranked⟩ := exists_ranked acyclic
  have falls : ∀ milestone ∈ chart.milestones, ∃ next,
      chart.sourceGraph grammar milestone = some next ∧ ∀ source ∈ next, source ∈ chart.milestones ∧
        source.weight grammar rank bound < milestone.weight grammar rank bound :=
    fun milestone member =>
      ⟨_, rfl, fun source leads => saturated.sound.sources_lighter ranked member leads⟩
  have graded := Graded.of_weights (Milestone.weight grammar rank bound) falls
  obtain ⟨walk, walked, reaches⟩ := Walk.visitAll_reaches graded (chart.totalItems + 1)
    fun goal member => ⟨goals_inside chart grammar goal member,
      Nat.lt_succ_of_le (chart.length_milestones ▸ List.countP_le_length)⟩
  obtain ⟨lists, solves⟩ := reaches.sorted.postordered.exists_solution (fullLists chart grammar)
    fun f g milestone same => fullLists_congr fun source leads => same source (Chart.leads_iff.mpr leads)
  have known : ∀ milestone ∈ walk.order.toList, milestone ∈ chart.milestones :=
    reaches.stays graded (goals_inside chart grammar)
  refine ⟨walk, lists, walked, reaches, solves, ?_, known⟩
  refine reaches.sorted.postordered.induction ?_
  intro milestone member below
  exact Exact.step saturated (known milestone member) (solves milestone member) fun source leads =>
    below source (Chart.leads_iff.mpr leads)

private theorem Collected.grows (sound : Sound grammar tokens chart.sets) {walk : Walk Milestone}
    (collected : Collected grammar tokens chart walk lists) :
    ∀ milestone ∈ walk.order.toList, ∀ source, Leads (chart.sourceGraph grammar) milestone source →
      (lists source).length ≤ (lists milestone).length := by
  intro milestone member source leads
  apply length_le_of_source sound (collected.solves milestone member) ?_ (Chart.leads_iff.mp leads)
  intro other below
  have inside := collected.reaches.sorted.postordered.closed member (Chart.leads_iff.mpr below)
  exact (collected.exact other inside).length_pos sound (collected.known other inside)

def readingsOf (chart : Chart) (grammar : Grammar) (lists : Milestone → List (List Tree)) :
    List Derivation :=
  (chart.goals grammar).flatMap (treesOf grammar lists)

private theorem length_le_readings (sound : Sound grammar tokens chart.sets) {goal : Milestone}
    (start : goal ∈ chart.goals grammar) :
    (lists goal).length ≤ (readingsOf chart grammar lists).length := by
  have member := Chart.mem_milestones.mp (goals_inside chart grammar goal start)
  obtain ⟨symbol, known⟩ := (sound.grounded _ _ member).known
  rw [← length_treesOf known]
  exact (List.sublist_flatten_of_mem (List.mem_map_of_mem start)).length_le

/-- A list is cut on the way exactly if there are more readings than the limit. -/
private theorem Collected.cut_eq (sound : Sound grammar tokens chart.sets) {walk : Walk Milestone}
    (collected : Collected grammar tokens chart walk lists) {table : Table} {limit : Nat}
    (follows : Follows lists limit walk.order.toList table.childrenOf table.cut) {found : Capped Derivation}
    (holds : found.Holds limit (∃ goal ∈ chart.goals grammar, limit < (treesOf grammar lists goal).length)
      (readingsOf chart grammar lists)) :
    (table.cut || found.cut) = decide (limit < (readingsOf chart grammar lists).length) := by
  rw [Bool.eq_iff_iff, Bool.or_eq_true, decide_eq_true_eq,
    follows.cut_iff_goal collected.reaches (collected.grows sound)]
  constructor
  · intro more
    rcases more with ⟨goal, start, long⟩ | noted
    · exact Nat.lt_of_lt_of_le long (length_le_readings sound start)
    · exact holds.longer noted
  · intro more
    rcases holds.noted more with noted | ⟨goal, start, excess⟩
    · exact Or.inr noted
    · exact Or.inl ⟨goal, start, Nat.lt_of_lt_of_le excess (length_treesOf_le goal)⟩

/-- What extraction returns is the beginning of the readings. -/
theorem Collected.extract_eq (sound : Sound grammar tokens chart.sets)
    (success : chart.outcome = .success) {walk : Walk Milestone}
    (walked : Walk.start.visitAll (chart.sourceGraph grammar) (chart.totalItems + 1)
      (chart.goals grammar) = .ok walk)
    (collected : Collected grammar tokens chart walk lists) (limit : Nat) :
    chart.extract grammar limit = .ok ⟨(readingsOf chart grammar lists).take (max limit 1),
      decide (max limit 1 < (readingsOf chart grammar lists).length)⟩ := by
  have positive : 0 < max limit 1 := Nat.lt_of_lt_of_le Nat.one_pos (Nat.le_max_right _ _)
  have follows := follows_lists positive collected.reaches.sorted.postordered collected.solves
  generalize filled : walk.order.toList.foldl (Table.enter chart grammar (max limit 1)) .empty = table
    at follows
  have trees : ∀ goal ∈ chart.goals grammar,
      table.trees grammar goal = (treesOf grammar lists goal).take (max limit 1) := by
    intro goal member
    exact trees_eq (follows.kept goal (collected.reaches.covers member))
  have offered := Capped.holds_offer_flatMap (max limit 1) (chart.goals grammar)
    (treesOf grammar lists)
  rw [← List.flatMap_congr trees] at offered
  rw [← collected.cut_eq sound follows offered, readingsOf, ← offered.values, ← filled]
  have visited : Walk.start.visitAll (fun milestone => some (chart.sources grammar milestone))
      (chart.totalItems + 1) ((chart.acceptingItems grammar).map (Milestone.mk chart.tokenCount)) =
      .ok walk := walked
  simp only [Chart.extract, Chart.isSuccess, success, beq_self_eq_true, Bool.not_true,
    Bool.false_eq_true, ite_false, visited, Array.foldl_toList]
  rfl

/-- The goals of a sound chart are the rules of the start symbol that are recognized as a whole. -/
theorem mem_goals_iff (sound : Sound grammar tokens chart.sets)
    (start : chart.start = grammar.start) (count : chart.tokenCount = tokens.size) {goal : Milestone} :
    goal ∈ chart.goals grammar ↔ goal = ⟨tokens.size, Item.whole grammar goal.item.rule 0⟩ ∧
      Item.whole grammar goal.item.rule 0 ∈ (setAt chart.sets tokens.size).items ∧
        grammar.lhs? goal.item.rule = some grammar.start := by
  rw [Chart.goals, Chart.acceptingItems_eq, start, count]
  constructor
  · intro member
    obtain ⟨item, chosen, rfl⟩ := List.mem_map.mp member
    obtain ⟨inside, accepting⟩ := List.mem_filter.mp chosen
    obtain ⟨whole, known⟩ := (sound.isAccepting_iff inside).mp accepting
    exact ⟨congrArg (Milestone.mk tokens.size) whole, whole ▸ inside, known⟩
  · obtain ⟨position, item⟩ := goal
    intro whole
    obtain ⟨same, inside, known⟩ := whole
    obtain ⟨rfl, whole⟩ := Milestone.mk.inj same
    refine List.mem_map_of_mem (List.mem_filter.mpr ?_)
    have inside : item ∈ (setAt chart.sets tokens.size).items := whole ▸ inside
    exact ⟨inside, (sound.isAccepting_iff inside).mpr ⟨whole, known⟩⟩

theorem Collected.nodup_readings (sound : Sound grammar tokens chart.sets)
    (start : chart.start = grammar.start) (count : chart.tokenCount = tokens.size)
    {walk : Walk Milestone} (collected : Collected grammar tokens chart walk lists) :
    (readingsOf chart grammar lists).Nodup := by
  apply List.nodup_flatMap.mpr
  constructor
  · intro goal member
    exact nodup_treesOf (collected.exact goal (collected.reaches.covers member)).distinct
  · have distinct : (chart.goals grammar).Nodup := by
      rw [Chart.goals, Chart.acceptingItems_eq]
      apply ((sound.distinct _).filter _).map
      exact fun _ _ same => (Milestone.mk.inj same).2
    apply distinct.imp_of_mem
    intro goal other first second differ
    obtain ⟨whole, -, known⟩ := (mem_goals_iff sound start count).mp first
    obtain ⟨same, -, found⟩ := (mem_goals_iff sound start count).mp second
    intro derivation here there
    obtain ⟨_, -, rfl⟩ := (mem_treesOf known).mp here
    obtain ⟨_, -, equal⟩ := (mem_treesOf found).mp there
    have rule : goal.item.rule = other.item.rule := congrArg Derivation.rule equal
    exact differ (by rw [whole, same, rule])

/-- The readings are the derivations of the start symbol over all tokens. -/
theorem Collected.mem_readings_iff (saturated : Saturated grammar tokens chart.sets)
    (start : chart.start = grammar.start) (count : chart.tokenCount = tokens.size)
    {walk : Walk Milestone} (collected : Collected grammar tokens chart walk lists)
    {derivation : Derivation} :
    derivation ∈ readingsOf chart grammar lists ↔ IsReading grammar tokens derivation := by
  have goals : ∀ {goal}, goal ∈ chart.goals grammar ↔ _ := mem_goals_iff saturated.sound start count
  simp only [readingsOf, List.mem_flatMap]
  constructor
  · intro listed
    obtain ⟨goal, member, inside⟩ := listed
    obtain ⟨whole, -, known⟩ := goals.mp member
    have exact := collected.exact goal (collected.reaches.covers member)
    rw [whole] at exact inside
    exact ((exact.mem_treesOf_iff rfl known).mp inside).2
  · intro reading
    obtain ⟨rule, lhs, span, children⟩ := derivation
    obtain ⟨rfl, rfl⟩ : lhs = grammar.start ∧ span = ⟨0, tokens.size⟩ := by
      cases reading
      exact ⟨rfl, rfl⟩
    obtain ⟨inside, known⟩ := saturated.accepting_iff.mpr ⟨children, reading⟩
    have member : ⟨tokens.size, Item.whole grammar rule 0⟩ ∈ chart.goals grammar :=
      goals.mpr ⟨rfl, inside, known⟩
    have exact := collected.exact _ (collected.reaches.covers member)
    exact ⟨_, member, (exact.mem_treesOf_iff rfl known).mpr ⟨rfl, reading⟩⟩

theorem Chart.extract_of_failure (failure : chart.outcome ≠ .success) (limit : Nat) :
    chart.extract grammar limit = .ok Selection.none := by
  simp only [Chart.extract, Chart.isSuccess, beq_eq_false_iff_ne.mpr failure]
  rfl

theorem Chart.exists_readings {config : ChartConfig}
    (acyclic : unitCycle? grammar.rules.toList = none)
    (success : (Chart.build grammar config tokens).outcome = .success) :
    ∃ readings : List Derivation, readings.Nodup ∧
      (∀ derivation, derivation ∈ readings ↔ IsReading grammar tokens derivation) ∧
      ∀ limit, (Chart.build grammar config tokens).extract grammar limit =
        .ok ⟨readings.take (max limit 1), decide (max limit 1 < readings.length)⟩ := by
  have saturated := (Chart.build_saturated (Chart.within_of_success success)).1
  obtain ⟨walk, lists, walked, collected⟩ := saturated.exists_collected acyclic
  exact ⟨_, collected.nodup_readings saturated.sound rfl rfl,
    fun _ => collected.mem_readings_iff saturated rfl rfl,
    fun limit => collected.extract_eq saturated.sound success walked limit⟩

theorem eq_of_extract {chart : Chart} {readings found : List Derivation} {limit : Nat}
    (extracted : ∀ limit, chart.extract grammar limit =
      .ok ⟨readings.take (max limit 1), decide (max limit 1 < readings.length)⟩)
    (whole : chart.extract grammar limit = .ok ⟨found, false⟩) : readings = found := by
  obtain ⟨taken, all⟩ := Selection.mk.inj (Except.ok.inj ((extracted limit).symm.trans whole))
  rwa [List.take_of_length_le (Nat.le_of_not_lt (of_decide_eq_false all))] at taken

theorem extract_threeOnes (limit : Nat) : (Chart.build sums {} threeOnes).extract sums limit =
    .ok ⟨[.leftSum, .rightSum].take (max limit 1), decide (max limit 1 < 2)⟩ := by
  have success : (Chart.build sums {} threeOnes).outcome = .success := by decide +kernel
  have some : (Chart.build sums {} threeOnes).extract sums 64 = .ok ⟨[.leftSum, .rightSum], false⟩ := by
    cbv
  obtain ⟨readings, -, -, extracted⟩ :=
    Chart.exists_readings (GrammarDraft.acyclic_of_build sumsDraft_builds) success
  obtain rfl := eq_of_extract extracted some
  exact extracted limit

/-- Extraction returns the readings of a token list up to the limit, and tells whether there are more. -/
theorem extract_exact {draft : GrammarDraft} {grammar : Grammar} (built : draft.build = .ok grammar)
    (config : ChartConfig) (tokens : Array Token)
    (success : (Chart.build grammar config tokens).outcome = .success) :
    ∃ readings : List Derivation, readings.Nodup ∧
      (∀ derivation, derivation ∈ readings ↔ IsReading grammar tokens derivation) ∧
      ∀ limit, (Chart.build grammar config tokens).extract grammar limit =
        .ok ⟨readings.take (max limit 1), decide (max limit 1 < readings.length)⟩ :=
  Chart.exists_readings (GrammarDraft.acyclic_of_build built) success

theorem threeOnes_extracted :
    sumsDraft.build = .ok sums ∧ (Chart.build sums {} threeOnes).outcome = .success ∧
      ∃ readings : List Derivation, readings = [.leftSum, .rightSum] ∧ readings.Nodup ∧
        (∀ derivation, derivation ∈ readings ↔ IsReading sums threeOnes derivation) ∧
        ∀ limit, (Chart.build sums {} threeOnes).extract sums limit =
          .ok ⟨readings.take (max limit 1), decide (max limit 1 < readings.length)⟩ := by
  have success : (Chart.build sums {} threeOnes).outcome = .success := by decide +kernel
  obtain ⟨readings, distinct, mem_iff, extracted⟩ := extract_exact sumsDraft_builds {} threeOnes success
  exact ⟨sumsDraft_builds, success, readings, eq_of_extract extracted (extract_threeOnes 64), distinct,
    mem_iff, extracted⟩

end Readings
