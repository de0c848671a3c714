import Readings.Analysis.Basic
import Readings.Proofs.NumberedRules
import Readings.Proofs.FirstReading
import Readings.Proofs.ForestReadings
import Readings.Proofs.PrunedForest
import Readings.Proofs.StableRanking

/-! Analyses of requests always come to their end. What a forest of readings refers to is in the grammar,
before and after pruning, and so is what its derivations apply; so none of the questions that an analysis
asks on the way is without an answer. `Assembles` tells what the answers are. -/

namespace Readings

variable {grammar : Grammar} {tokens : Array Token} {forest : Forest}

def Forest.IsProper (grammar : Grammar) (forest : Forest) : Prop :=
  ∀ id node, forest.node? id = some node → node.IsProper grammar

theorem Grammar.rule_ok {id : RuleId} {symbol : Symbol} (known : grammar.lhs? id = some symbol) :
    ∃ rule, grammar.rule id = .ok rule := by
  obtain ⟨rule, found, -, -⟩ := Grammar.rule_of_lhs known
  exact ⟨rule, by rw [Grammar.rule, found]⟩

private theorem alternativesAmong_ok (proper : forest.IsProper grammar) (ids : List NodeId) :
    ∃ alternatives, forest.alternativesAmong grammar ids = .ok alternatives := by
  induction ids with
  | nil => exact ⟨[], rfl⟩
  | cons id ids ih =>
    obtain ⟨rest, below⟩ := ih
    rw [Forest.alternativesAmong]
    split
    next rule _ _ _ priority action found =>
      obtain ⟨symbol, known⟩ := proper id _ found
      obtain ⟨definition, answered⟩ := Grammar.rule_ok known
      simp only [answered, below]
      exact ⟨_, rfl⟩
    next => exact ⟨rest, below⟩

theorem TokenSpan.textRange_ok {span : TokenSpan} (ordered : span.start ≤ span.stop)
    (tokens : Array Token) : ∃ range, span.textRange tokens = .ok range := by
  simp only [TokenSpan.textRange, TokenSpan.isEmpty, beq_iff_eq]
  split
  next => exact ⟨_, rfl⟩
  next longer =>
    rw [if_neg (by omega)]
    split <;> exact ⟨_, rfl⟩

private theorem pointAt_ok (built : grammar.IsBuilt) (proper : forest.IsProper grammar)
    (tokens : Array Token) {id : NodeId} {node : ForestNode} (here : node.IsProper grammar) :
    ∃ point, forest.pointAt grammar tokens id node = .ok point := by
  cases node with
  | leaf => exact ⟨none, rfl⟩
  | application => exact ⟨none, rfl⟩
  | choice symbol span alternatives =>
    obtain ⟨⟨rule, known⟩, ordered⟩ := here
    obtain ⟨found, among⟩ := alternativesAmong_ok proper alternatives
    obtain ⟨range, ranged⟩ := TokenSpan.textRange_ok ordered tokens
    have name : grammar.symbolName symbol = .ok grammar.names[symbol]! := by
      have inside := built.named rule symbol known
      simp [Grammar.symbolName, inside]
    simp only [Forest.pointAt, among, name, ranged]
    exact ⟨_, rfl⟩

theorem Forest.IsProper.ambiguityPoints_ok (proper : forest.IsProper grammar)
    (built : grammar.IsBuilt) (tokens : Array Token) :
    ∃ points, forest.ambiguityPoints grammar tokens = .ok points := by
  obtain ⟨points, answered⟩ : ∃ points, forest.entries.mapM (fun entry =>
      forest.pointAt grammar tokens entry.1 entry.2) = .ok points := by
    apply exists_mapM_ok
    intro entry member
    exact pointAt_ok built proper tokens (proper entry.1 entry.2 (Forest.mem_entries.mp member))
  simp only [Forest.ambiguityPoints, answered]
  exact ⟨_, rfl⟩

theorem IsReading.isOf {derivation : Derivation} (reading : IsReading grammar tokens derivation) :
    derivation.IsOf grammar := by
  intro node inside
  cases reading.of_node inside with
  | application known _ => exact Grammar.rule_ok known

theorem Scorer.rank_ok (scorer : Scorer) (requested : List Token) (discourse : Option Discourse)
    {derivations : List Derivation}
    (readings : ∀ derivation ∈ derivations, IsReading grammar tokens derivation) :
    ∃ ranking, scorer.rank grammar discourse derivations requested = .ok ranking :=
  exists_rank_iff.mpr fun derivation member => (readings derivation member).isOf

private theorem proper_remains {threshold : Int} {node : ForestNode} (proper : node.IsProper grammar)
    (number : NodeId → NodeId) : ((forest.remains threshold node).node number).IsProper grammar := by
  cases node <;> exact proper

namespace Analyzer

section
variable (analyzer : Analyzer) (tokens : Array Token) (selection : Selection)

/-- How the forest of a parse and the derivations to rank come from the derivations extracted. -/
inductive Narrowing : Forest → List Derivation → Prop where
  | nothing (none : selection.derivations = []) : Narrowing (Forest.empty tokens.size) []
  | whole {forest : Forest} {root : NodeId} (some : selection.derivations ≠ [])
      (packs : Packs analyzer.grammar tokens selection.derivations forest root)
      (chosen : analyzer.config.prune = none) : Narrowing forest selection.derivations
  /-- The derivations are those that the pruned forest still has, up to the limit. -/
  | pruned {packed forest : Forest} {root top : NodeId} {threshold : Int} {left : List Derivation}
      (some : selection.derivations ≠ [])
      (packs : Packs analyzer.grammar tokens selection.derivations packed root)
      (chosen : analyzer.config.prune = .some threshold)
      (prunes : Forest.Prunes packed root threshold forest top)
      (trees : forest.trees top = left.map Derivation.tree) :
      Narrowing forest (left.take (max analyzer.config.chart.maxDerivations 1))

end

variable {analyzer : Analyzer} {selection : Selection} {ranked : List Derivation}

theorem Narrowing.proper (narrowing : analyzer.Narrowing tokens selection forest ranked) :
    forest.IsProper analyzer.grammar := by
  cases narrowing with
  | nothing none =>
    intro id node found
    cases (Forest.node?_empty tokens.size id).symm.trans found
  | whole some packs chosen => exact packs.proper
  | pruned some packs chosen prunes trees =>
    intro id node found
    obtain ⟨number, source, old, there, rfl⟩ := prunes.made id node found
    exact proper_remains (packs.proper source old there) number

theorem Narrowing.readings (narrowing : analyzer.Narrowing tokens selection forest ranked)
    (readings : ∀ derivation ∈ selection.derivations, IsReading analyzer.grammar tokens derivation) :
    ∀ derivation ∈ ranked, IsReading analyzer.grammar tokens derivation := by
  cases narrowing with
  | nothing none => exact fun derivation member => absurd member List.not_mem_nil
  | whole some packs chosen => exact readings
  | pruned some packs chosen prunes trees =>
    intro derivation member
    apply packs.sound
    apply (prunes.sublist packs.layered).subset
    rw [trees]
    exact List.mem_map_of_mem (List.mem_of_mem_take member)

theorem narrow_pruned {packed : Forest} {root : NodeId} {threshold : Int}
    (made : Forest.ofDerivations analyzer.grammar selection.derivations tokens.size = .ok packed)
    (packs : Packs analyzer.grammar tokens selection.derivations packed root)
    (chosen : analyzer.config.prune = some threshold) :
    ∃ (forest : Forest) (top : NodeId) (left : List Derivation),
      Forest.Prunes packed root threshold forest top ∧
      forest.trees top = left.map Derivation.tree ∧
      analyzer.narrow tokens.size selection =
        .ok (forest, ⟨left.take (max analyzer.config.chart.maxDerivations 1),
          selection.truncated || decide (max analyzer.config.chart.maxDerivations 1 < left.length)⟩) := by
  obtain ⟨forest, top, cut, prunes⟩ := packs.arranged.exists_pruned packs.rooted packs.inside threshold
  obtain ⟨left, trees⟩ := packs.exists_map_tree (prunes.sublist packs.layered).subset
  have listed := prunes.layered.derivations_eq prunes.rooted prunes.inside
    analyzer.config.chart.maxDerivations
  rw [trees, ← List.map_take, filterMap_toDerivation?, List.length_map] at listed
  refine ⟨forest, top, left, prunes, trees, ?_⟩
  simp only [narrow, made, chosen, bind, Except.bind, cut, listed]
  rfl

theorem exists_narrowing (analyzer : Analyzer) (built : analyzer.grammar.IsBuilt)
    (short : tokens.size < countBound) {selection : Selection}
    (readings : ∀ derivation ∈ selection.derivations, IsReading analyzer.grammar tokens derivation) :
    ∃ forest ranked, analyzer.narrow tokens.size selection = .ok (forest, ranked) ∧
      analyzer.Narrowing tokens selection forest ranked.derivations := by
  by_cases none : selection.derivations = []
  · have narrowing : analyzer.Narrowing tokens selection (Forest.empty tokens.size) [] := .nothing none
    cases chosen : analyzer.config.prune with
    | none =>
      refine ⟨Forest.empty tokens.size, selection, ?_, none.symm ▸ narrowing⟩
      simp only [narrow, Forest.ofDerivations, chosen, none]
      rfl
    | some threshold =>
      refine ⟨Forest.empty tokens.size, ⟨[], selection.truncated || false⟩, ?_, narrowing⟩
      simp only [narrow, Forest.ofDerivations, chosen, none]
      rfl
  · obtain ⟨forest, root, packed, packs⟩ := exists_packed built.acyclic short none readings
    cases chosen : analyzer.config.prune with
    | none =>
      refine ⟨forest, selection, ?_, .whole none packs chosen⟩
      simp only [narrow, packed, chosen]
      rfl
    | some threshold =>
      obtain ⟨pruned, top, left, prunes, trees, narrowed⟩ := narrow_pruned packed packs chosen
      exact ⟨pruned, _, narrowed, .pruned none packs chosen prunes trees⟩

/-- How the parts of an analysis come from its parse. -/
structure Assembles (analyzer : Analyzer) (tokens : List Token) (discourse : Option Discourse)
    (analysis : Analysis) : Prop where
  narrowing : analyzer.Narrowing tokens.toArray analysis.result.selection analysis.forest
    analysis.derivations
  points : analysis.forest.ambiguityPoints analyzer.grammar tokens.toArray =
    .ok analysis.ambiguityPoints
  ranked : analyzer.scorer.rank analyzer.grammar discourse analysis.derivations tokens =
    .ok analysis.ranking
  error : analysis.error = analysis.result.chart.error? tokens.toArray
  narrowed : analyzer.narrow tokens.toArray.size analysis.result.selection =
    .ok (analysis.forest, ⟨analysis.derivations, analysis.truncated⟩)

theorem exists_assembled (analyzer : Analyzer) (built : analyzer.grammar.IsBuilt) {tokens : List Token}
    (short : tokens.length < countBound) (discourse : Option Discourse) {result : ParseResult}
    (readings : ∀ derivation ∈ result.selection.derivations,
      IsReading analyzer.grammar tokens.toArray derivation) :
    ∃ analysis, analyzer.assemble tokens result discourse = .ok analysis ∧ analysis.result = result ∧
      analyzer.Assembles tokens discourse analysis := by
  obtain ⟨forest, ranked, narrowed, narrowing⟩ :=
    analyzer.exists_narrowing built (by simpa using short) readings
  obtain ⟨points, told⟩ := narrowing.proper.ambiguityPoints_ok built tokens.toArray
  obtain ⟨ranking, ordered⟩ := analyzer.scorer.rank_ok tokens discourse (narrowing.readings readings)
  have first : analyzer.narrow tokens.length result.selection = .ok (forest, ranked) := narrowed
  refine ⟨⟨result, forest, points, ranked.derivations, ranking, result.chart.error? tokens.toArray,
    ranked.truncated⟩, ?_, rfl, narrowing, told, ordered, rfl, narrowed⟩
  simp only [assemble, first, bind, Except.bind, told, ordered]
  rfl

theorem assemble_ok (analyzer : Analyzer) (built : analyzer.grammar.IsBuilt) {tokens : List Token}
    (short : tokens.length < countBound) (discourse : Option Discourse) {result : ParseResult}
    (readings : ∀ derivation ∈ result.selection.derivations,
      IsReading analyzer.grammar tokens.toArray derivation) :
    ∃ analysis, analyzer.assemble tokens result discourse = .ok analysis := by
  obtain ⟨analysis, assembled, -⟩ := analyzer.exists_assembled built short discourse readings
  exact ⟨analysis, assembled⟩

end Analyzer

theorem Grammar.IsBuilt.exists_parsed (built : grammar.IsBuilt) (config : ChartConfig)
    (tokens : Array Token) :
    ∃ result, grammar.parse config tokens = .ok result ∧
      result.chart = Chart.build grammar config tokens ∧
      result.chart.Selects grammar tokens config.maxDerivations result.selection := by
  obtain ⟨selection, selects⟩ := Chart.exists_selects built.acyclic config tokens config.maxDerivations
  refine ⟨⟨Chart.build grammar config tokens, selection⟩, ?_, rfl, selects⟩
  simp only [Grammar.parse, selects.extracted]
  rfl

theorem Grammar.IsBuilt.parse_ok (built : grammar.IsBuilt) (config : ChartConfig) (tokens : Array Token) :
    ∃ result, grammar.parse config tokens = .ok result ∧
      result.chart = Chart.build grammar config tokens ∧
      ∀ derivation ∈ result.selection.derivations, IsReading grammar tokens derivation := by
  obtain ⟨result, parsed, same, selects⟩ := built.exists_parsed config tokens
  exact ⟨result, parsed, same, selects.readings⟩

/-- The parts of an analysis are what the steps answered on the way to it. -/
theorem Analyzer.steps_of_analyze {analyzer : Analyzer} {tokens : List Token}
    {discourse : Option Discourse} {analysis : Analysis}
    (analyzed : analyzer.analyze tokens discourse = .ok analysis) :
    analyzer.grammar.parse analyzer.config.chart tokens.toArray = .ok analysis.result ∧
      analyzer.narrow tokens.length analysis.result.selection =
        .ok (analysis.forest, ⟨analysis.derivations, analysis.truncated⟩) ∧
      analysis.forest.ambiguityPoints analyzer.grammar tokens.toArray =
        .ok analysis.ambiguityPoints := by
  simp only [analyze, assemble, bind_eq_ok_iff] at analyzed
  obtain ⟨result, parsed, ⟨forest, ranked⟩, narrowed, points, told, ranking, -, made⟩ := analyzed
  cases made
  exact ⟨parsed, narrowed, told⟩

theorem Grammar.parse_threeOnes (limit : Nat) :
    sums.parse { maxDerivations := limit } threeOnes = .ok ⟨Chart.build sums {} threeOnes,
      ⟨[.leftSum, .rightSum].take (max limit 1), decide (max limit 1 < 2)⟩⟩ := by
  have same : Chart.build sums { maxDerivations := limit } threeOnes =
      Chart.build sums {} threeOnes := by cbv
  simp only [Grammar.parse, same, extract_threeOnes]
  rfl

/-- Three ones are analysed with success, and the analysis shows what is left of their two readings. -/
theorem Analyzer.analyze_threeOnes {analyzer : Analyzer} {limit : Nat} {forest : Forest}
    {left : Selection} {analysis : Analysis} (own : analyzer.grammar = sums)
    (limited : analyzer.config.chart = { maxDerivations := limit })
    (narrowed : analyzer.narrow threeOnes.size
      ⟨[.leftSum, .rightSum].take (max limit 1), decide (max limit 1 < 2)⟩ = .ok (forest, left))
    (analyzed : analyzer.analyze threeOnes.toList none = .ok analysis) :
    analysis.isSuccess = true ∧ ⟨analysis.derivations, analysis.truncated⟩ = left ∧
      forest.ambiguityPoints sums threeOnes = .ok analysis.ambiguityPoints := by
  obtain ⟨parsed, told, points⟩ := steps_of_analyze analyzed
  rw [own, limited] at parsed
  have result := Except.ok.inj (parsed.symm.trans (Grammar.parse_threeOnes limit))
  rw [result] at told
  obtain ⟨same, ranked⟩ := Prod.mk.inj (Except.ok.inj (told.symm.trans narrowed))
  rw [own, same] at points
  refine ⟨?_, ranked, points⟩
  have success : (Chart.build sums {} threeOnes).isSuccess = true := by decide +kernel
  rw [Analysis.isSuccess, result]
  exact success

theorem Analyzer.exists_analysis (analyzer : Analyzer) (built : analyzer.grammar.IsBuilt)
    {tokens : List Token} (short : tokens.length < countBound) (discourse : Option Discourse) :
    ∃ analysis, analyzer.analyze tokens discourse = .ok analysis ∧
      analysis.result.chart.Selects analyzer.grammar tokens.toArray analyzer.config.chart.maxDerivations
        analysis.result.selection ∧
      analyzer.Assembles tokens discourse analysis := by
  obtain ⟨result, parsed, -, selects⟩ := built.exists_parsed analyzer.config.chart tokens.toArray
  obtain ⟨analysis, assembled, rfl, assembles⟩ :=
    analyzer.exists_assembled built short discourse selects.readings
  refine ⟨analysis, ?_, selects, assembles⟩
  simp only [analyze, parsed, bind, Except.bind, assembled]

end Readings
