import Readings.Proofs.CoherentAnalysis
import Readings.Proofs.PartingTrees

/-! Ambiguity points are neither hidden nor invented. A forest has choices only if two of the derivations
ranked are different, and any two different ones part at a choice; and what the points say about the
choices is what the derivations do there. -/

namespace Readings

private theorem exists_cons_cons {α : Type} {values : List α} (several : 2 ≤ values.length) :
    ∃ first second rest, values = first :: second :: rest := by
  cases values with
  | nil => cases several
  | cons first values =>
    cases values with
    | nil => simp at several
    | cons second rest => exact ⟨first, second, rest, rfl⟩

namespace Forest

variable {forest : Forest} {grammar : Grammar} {tokens : Array Token}

/-- A rule application that is made by an alternative of an ambiguity point. -/
structure Uses (forest : Forest) (grammar : Grammar) (point : AmbiguityPoint) (alternative : Alternative)
    (node : Derivation) : Prop where
  listed : alternative ∈ point.alternatives
  symbol : grammar.symbolName node.lhs = .ok point.symbol
  span : node.span = point.span
  rule : node.rule = alternative.rule
  packing : forest.packing? alternative.node = some node.packing

/-- The alternatives told are the applications among the nodes, with the rules applied there. -/
private theorem alternativesAmong_told {ids : List NodeId} {alternatives : List Alternative}
    (told : forest.alternativesAmong grammar ids = .ok alternatives) :
    alternatives.map (·.node) = ids.filter (fun id => (forest.packing? id).isSome) ∧
      ∀ alternative ∈ alternatives, ∀ packing, forest.packing? alternative.node = some packing →
        packing.rule = alternative.rule := by
  induction ids generalizing alternatives with
  | nil =>
    cases told
    exact ⟨rfl, fun alternative member => absurd member List.not_mem_nil⟩
  | cons id ids ih =>
    rw [alternativesAmong] at told
    split at told
    next rule symbol span children priority action found =>
      have here : forest.packing? id = some ⟨rule, children.filterMap forest.part?⟩ := by
        simp only [packing?, found]
      obtain ⟨definition, -, told⟩ := bind_eq_ok_iff.mp told
      obtain ⟨others, rest, told⟩ := bind_eq_ok_iff.mp told
      cases told
      obtain ⟨places, rules⟩ := ih rest
      refine ⟨?_, ?_⟩
      · rw [List.map_cons, places, List.filter_cons_of_pos (by rw [here]; rfl)]
      · simp only [List.forall_mem_cons]
        refine ⟨?_, rules⟩
        intro packing same
        rw [here] at same
        exact congrArg Packing.rule (Option.some.inj same).symm
    next other =>
      have none : forest.packing? id = none := by
        rw [packing?]
        split
        next found => exact absurd found (other _ _ _ _ _ _)
        next => rfl
      rw [List.filter_cons_of_neg (by simp [none])]
      exact ih told

private structure Tells (forest : Forest) (grammar : Grammar) (point : AmbiguityPoint)
    (symbol : Symbol) (alternatives : List NodeId) : Prop where
  found : forest.node? point.node = some (.choice symbol point.span alternatives)
  symbol : grammar.symbolName symbol = .ok point.symbol
  among : forest.alternativesAmong grammar alternatives = .ok point.alternatives

private theorem tells_of_pointAt {id : NodeId} {symbol : Symbol} {span : TokenSpan}
    {alternatives : List NodeId} {answer : Option AmbiguityPoint}
    (found : forest.node? id = some (.choice symbol span alternatives))
    (answered : forest.pointAt grammar tokens id (.choice symbol span alternatives) = .ok answer) :
    ∃ point, answer = some point ∧ point.span = span ∧ forest.Tells grammar point symbol alternatives := by
  obtain ⟨entries, among, rest⟩ := bind_eq_ok_iff.mp answered
  obtain ⟨name, named, rest⟩ := bind_eq_ok_iff.mp rest
  obtain ⟨range, -, rest⟩ := bind_eq_ok_iff.mp rest
  cases rest
  exact ⟨_, rfl, rfl, found, named, among⟩

section
variable {points : List AmbiguityPoint} (told : forest.ambiguityPoints grammar tokens = .ok points)
include told

/-- No point is invented. -/
private theorem exists_tells {point : AmbiguityPoint} (member : point ∈ points) :
    ∃ symbol alternatives, forest.Tells grammar point symbol alternatives := by
  obtain ⟨answers, answered, made⟩ := bind_eq_ok_iff.mp told
  cases made
  obtain ⟨_, listed, rfl⟩ := List.mem_filterMap.mp member
  obtain ⟨⟨id, node⟩, inside, answer⟩ := (mem_of_mapM_ok answered).mp listed
  have found := mem_entries.mp inside
  cases node with
  | leaf => cases answer
  | application => cases answer
  | choice symbol span alternatives =>
    obtain ⟨_, same, rfl, tells⟩ := tells_of_pointAt found answer
    cases same
    exact ⟨symbol, alternatives, tells⟩

/-- No choice is hidden. -/
private theorem exists_point {id : NodeId} {symbol : Symbol} {span : TokenSpan}
    {alternatives : List NodeId} (found : forest.node? id = some (.choice symbol span alternatives)) :
    ∃ point ∈ points, point.span = span ∧ forest.Tells grammar point symbol alternatives := by
  obtain ⟨answers, answered, made⟩ := bind_eq_ok_iff.mp told
  cases made
  have inside := mem_entries.mpr found
  obtain ⟨answer, given⟩ := answered_of_mapM_ok answered inside
  obtain ⟨point, rfl, same, tells⟩ := tells_of_pointAt found given
  have listed := (mem_of_mapM_ok answered).mpr ⟨_, inside, given⟩
  exact ⟨point, List.mem_filterMap.mpr ⟨_, listed, rfl⟩, same, tells⟩

end

section
variable {point : AmbiguityPoint} {symbol : Symbol} {alternatives : List NodeId}
  (tells : forest.Tells grammar point symbol alternatives)
include tells

private theorem Tells.uses {entry : Alternative} (listed : entry ∈ point.alternatives) {node : Derivation}
    (slot : node.slot = ⟨symbol, point.span⟩) (applied : forest.packing? entry.node = some node.packing) :
    forest.Uses grammar point entry node := by
  obtain ⟨rfl, span⟩ := Slot.mk.inj slot
  exact ⟨listed, tells.symbol, span, (alternativesAmong_told tells.among).2 entry listed _ applied, applied⟩

private theorem Tells.exists_uses {alternative : NodeId} (chosen : alternative ∈ alternatives)
    {node : Derivation} (slot : node.slot = ⟨symbol, point.span⟩)
    (applied : forest.packing? alternative = some node.packing) :
    ∃ entry, forest.Uses grammar point entry node := by
  have kept : alternative ∈ point.alternatives.map (·.node) := by
    rw [(alternativesAmong_told tells.among).1]
    exact List.mem_filter.mpr ⟨chosen, by rw [applied]; rfl⟩
  obtain ⟨entry, listed, rfl⟩ := List.mem_map.mp kept
  exact ⟨entry, tells.uses listed slot applied⟩

private theorem Tells.mem_alternatives {entry : Alternative} (listed : entry ∈ point.alternatives) :
    entry.node ∈ alternatives := by
  have kept := List.mem_map_of_mem (f := (·.node)) listed
  rw [(alternativesAmong_told tells.among).1] at kept
  exact (List.mem_filter.mp kept).1

end

theorem Arranged.two_le_length (arranged : forest.Arranged) {id : NodeId} {symbol : Symbol}
    {span : TokenSpan} {alternatives : List NodeId}
    (found : forest.node? id = some (.choice symbol span alternatives)) :
    2 ≤ (forest.trees id).length := by
  have inside := node?_isSome_iff.mp ⟨_, found⟩
  have some : ∀ alternative ∈ alternatives, 0 < (forest.trees alternative).length := by
    intro alternative chosen
    have earlier := arranged.layered.earlier id _ found alternative chosen
    exact arranged.layered.length_pos alternative (Nat.lt_trans earlier inside)
  have several := arranged.several id symbol span alternatives found
  rw [arranged.layered.trees_eq found, ForestNode.fullTrees]
  obtain ⟨first, second, rest, rfl⟩ := exists_cons_cons several
  simp only [List.forall_mem_cons] at some
  simp only [List.flatMap_cons, List.length_append]
  omega

end Forest

/-- The forest of a single derivation that is uniform has no choice. -/
private theorem Packs.two_le_length {grammar : Grammar} {tokens : Array Token}
    {derivations : List Derivation} {forest : Forest} {root : NodeId}
    (packs : Packs grammar tokens derivations forest root)
    (uniform : ∀ first, derivations.head? = some first → first.IsUniform) {id : NodeId} {symbol : Symbol}
    {span : TokenSpan} {alternatives : List NodeId}
    (found : forest.node? id = some (.choice symbol span alternatives)) : 2 ≤ derivations.length := by
  have several := packs.arranged.several id symbol span alternatives found
  have distinct := packs.arranged.distinct id symbol span alternatives found
  have used := packs.used id symbol span alternatives found
  obtain ⟨first, second, rest, rfl⟩ := exists_cons_cons several
  simp only [List.forall_mem_cons] at used
  obtain ⟨one, here, node, inside, slot, packing⟩ := used.1
  obtain ⟨other, there, twin, within, place, twinned⟩ := used.2.1
  by_contra few
  obtain ⟨only, rfl⟩ : ∃ only, derivations = [only] := by
    apply List.length_eq_one_iff.mp
    have some := List.length_pos_of_mem here
    omega
  obtain rfl := List.mem_singleton.mp here
  obtain rfl := List.mem_singleton.mp there
  have same := uniform other rfl node inside twin within (slot.trans place.symm)
  simp [packing, twinned, same] at distinct

namespace Analyzer.Narrowing

variable {analyzer : Analyzer} {tokens : Array Token} {selection : Selection} {forest : Forest}
  {ranked : List Derivation} (narrowing : analyzer.Narrowing tokens selection forest ranked)
include narrowing

theorem arranged : forest.Arranged := by
  cases narrowing with
  | nothing => exact Forest.arranged_empty _
  | whole _ packs _ => exact packs.arranged
  | pruned _ _ _ prunes _ => exact prunes.arranged

theorem exists_root : ∃ root, ∀ derivation ∈ ranked, derivation.tree ∈ forest.trees root := by
  cases narrowing with
  | nothing => exact ⟨0, fun derivation member => absurd member List.not_mem_nil⟩
  | @whole _ root _ packs _ => exact ⟨root, packs.complete⟩
  | @pruned _ _ _ top _ left _ _ _ _ trees =>
    refine ⟨top, fun derivation member => ?_⟩
    rw [trees]
    exact List.mem_map_of_mem (List.mem_of_mem_take member)

private theorem two_le_length (uniform : ∀ first, selection.derivations.head? = some first → first.IsUniform)
    (short : selection.derivations.length ≤ max analyzer.config.chart.maxDerivations 1) {id : NodeId}
    {symbol : Symbol} {span : TokenSpan} {alternatives : List NodeId}
    (found : forest.node? id = some (.choice symbol span alternatives)) : 2 ≤ ranked.length := by
  cases narrowing with
  | nothing => cases (Forest.node?_empty tokens.size id).symm.trans found
  | whole _ packs _ => exact packs.two_le_length uniform found
  | @pruned packed _ _ top _ left _ packs _ prunes trees =>
    -- Two trees at the choice are two at the top. The limit has room for both, as it had for several
    -- derivations extracted: the packed forest has the choice as well.
    have wide := Nat.le_trans (prunes.arranged.two_le_length found)
      (prunes.widest id (Forest.node?_isSome_iff.mp ⟨_, found⟩))
    rw [trees, List.length_map] at wide
    obtain ⟨number, source, old, there, same⟩ := prunes.made id _ found
    have many : 2 ≤ selection.derivations.length := by
      cases old with
      | leaf => cases same
      | application => cases same
      | choice => exact packs.two_le_length uniform there
    rw [List.length_take]
    omega

private theorem used (whole : analyzer.config.prune = none) {id : NodeId} {symbol : Symbol}
    {span : TokenSpan} {alternatives : List NodeId}
    (found : forest.node? id = some (.choice symbol span alternatives)) {alternative : NodeId}
    (chosen : alternative ∈ alternatives) :
    ∃ derivation ∈ ranked, ∃ node ∈ derivation.nodes, node.slot = ⟨symbol, span⟩ ∧
      forest.packing? alternative = some node.packing := by
  cases narrowing with
  | nothing => cases (Forest.node?_empty tokens.size id).symm.trans found
  | whole _ packs _ => exact packs.used id symbol span alternatives found alternative chosen
  | pruned _ _ pruning _ _ =>
    rw [whole] at pruning
    cases pruning

end Analyzer.Narrowing

/-- An analysis has ambiguity points exactly if several derivations are ranked: any two of them come to a
point where they use different alternatives, and without pruning each alternative is used. -/
structure Analysis.TellsAmbiguity (grammar : Grammar) (prune : Option Int) (analysis : Analysis) : Prop where
  ranked : (analysis.ranking.parses.map (·.scored.derivation)).Perm
    (List.range analysis.derivations.length)
  distinct : analysis.derivations.Nodup
  points : analysis.ambiguityPoints ≠ [] ↔ 2 ≤ analysis.ranking.parses.length
  parted : ∀ first ∈ analysis.derivations, ∀ second ∈ analysis.derivations, first ≠ second →
    ∃ path one other, first.follow? path = some one ∧ second.follow? path = some other ∧
      one.packing ≠ other.packing ∧ ∃ point ∈ analysis.ambiguityPoints, ∃ used another,
        analysis.forest.Uses grammar point used one ∧ analysis.forest.Uses grammar point another other
  used : prune = none → ∀ point ∈ analysis.ambiguityPoints, ∀ alternative ∈ point.alternatives,
    ∃ derivation ∈ analysis.derivations, ∃ node ∈ derivation.nodes,
      analysis.forest.Uses grammar point alternative node

private theorem exists_parted {analyzer : Analyzer} {tokens : List Token} {discourse : Option Discourse}
    {analysis : Analysis} (assembles : analyzer.Assembles tokens discourse analysis)
    {first second : Derivation} (here : first ∈ analysis.derivations)
    (there : second ∈ analysis.derivations) (differ : first ≠ second) :
    ∃ path one other, first.follow? path = some one ∧ second.follow? path = some other ∧
      one.packing ≠ other.packing ∧ ∃ point ∈ analysis.ambiguityPoints, ∃ used another,
        analysis.forest.Uses analyzer.grammar point used one ∧
        analysis.forest.Uses analyzer.grammar point another other := by
  obtain ⟨root, trees⟩ := assembles.narrowing.exists_root
  obtain ⟨choice, path, one, other, followed, traced, parts⟩ :=
    assembles.narrowing.arranged.exists_parting (trees first here) (trees second there) differ
  obtain ⟨symbol, span, alternatives, found, slot, place, used, another⟩ := parts.chosen
  obtain ⟨point, listed, rfl, tells⟩ := Forest.exists_point assembles.points found
  obtain ⟨a, chosen, applied⟩ := used
  obtain ⟨b, taken, makes⟩ := another
  obtain ⟨entry, uses⟩ := tells.exists_uses chosen slot applied
  obtain ⟨twin, twinned⟩ := tells.exists_uses taken place makes
  exact ⟨path, one, other, followed, traced, parts.differ, point, listed, entry, twin, uses, twinned⟩

/-- Ambiguity is neither hidden nor invented, whatever the limits, the threshold for pruning and the
scorer. -/
theorem ambiguity_exact {draft : GrammarDraft} (analyzer : Analyzer)
    (built : draft.build = .ok analyzer.grammar) (tokens : List Token)
    (short : tokens.length < countBound) (discourse : Option Discourse) :
    ∃ analysis, analyzer.analyze tokens discourse = .ok analysis ∧
      analysis.TellsAmbiguity analyzer.grammar analyzer.config.prune := by
  obtain ⟨analysis, analyzed, selects, assembles⟩ :=
    analyzer.exists_analysis (GrammarDraft.isBuilt built) short discourse
  have narrowing := assembles.narrowing
  have distinct := narrowing.nodup selects.distinct
  have ranked := Scorer.rank_perm assembles.ranked
  have count : analysis.ranking.parses.length = analysis.derivations.length := by
    simpa using ranked.length_eq
  refine ⟨analysis, analyzed, ranked, distinct, ?_, ?_, ?_⟩
  · rw [count]
    constructor
    · intro some
      obtain ⟨point, listed⟩ := List.exists_mem_of_ne_nil _ some
      obtain ⟨symbol, alternatives, tells⟩ := Forest.exists_tells assembles.points listed
      exact narrowing.two_le_length selects.uniform selects.short tells.found
    · intro several
      have differ : analysis.derivations[0] ≠ analysis.derivations[1] :=
        fun same => absurd (distinct.getElem_inj_iff.mp same) Nat.zero_ne_one
      obtain ⟨_, _, _, _, _, _, point, listed, _⟩ :=
        exists_parted assembles (List.getElem_mem _) (List.getElem_mem _) differ
      exact List.ne_nil_of_mem listed
  · exact fun first here second there differ => exists_parted assembles here there differ
  · intro whole point listed entry chosen
    obtain ⟨symbol, alternatives, tells⟩ := Forest.exists_tells assembles.points listed
    obtain ⟨derivation, member, node, inside, slot, applied⟩ :=
      narrowing.used whole tells.found (tells.mem_alternatives chosen)
    exact ⟨derivation, member, node, inside, tells.uses chosen slot applied⟩

/-- The two readings of three ones part at the root, the only place with a choice. -/
theorem threeOnes_ambiguous :
    let analyzer := Analyzer.ofConfig sums { chart := { maxDerivations := 2 } }
    sumsDraft.build = .ok analyzer.grammar ∧ threeOnes.toList.length < countBound ∧
      ∃ analysis, analyzer.analyze threeOnes.toList none = .ok analysis ∧
        analysis.TellsAmbiguity sums none ∧ analysis.isSuccess = true ∧
        analysis.derivations = [.leftSum, .rightSum] ∧
        analysis.ambiguityPoints.map (·.span) = [⟨0, 5⟩] := by
  intro analyzer
  have short : threeOnes.toList.length < countBound := by decide +kernel
  obtain ⟨analysis, analyzed, tells⟩ :=
    ambiguity_exact analyzer sumsDraft_builds threeOnes.toList short none
  have narrowed : analyzer.narrow threeOnes.size ⟨[.leftSum, .rightSum], false⟩ =
      .ok (sumsForest, ⟨[.leftSum, .rightSum], false⟩) := by
    simp only [Analyzer.narrow, ofDerivations_sums, analyzer, Analyzer.ofConfig]
    rfl
  have points : (sumsForest.ambiguityPoints sums threeOnes).map (·.map (·.span)) = .ok [⟨0, 5⟩] := by
    cbv
  obtain ⟨success, derivations, told⟩ := Analyzer.analyze_threeOnes rfl rfl narrowed analyzed
  rw [told] at points
  exact ⟨sumsDraft_builds, short, analysis, analyzed, tells, success,
    congrArg Selection.derivations derivations, Except.ok.inj points⟩

end Readings
