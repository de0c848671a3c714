import Readings.Proofs.AnalysisAnswers
import Readings.Proofs.SoundDerivations

/-! The parts of an analysis agree. There are derivations to show exactly if the parse was a success, also
after pruning, and each of them is a reading that passes the check of trees. -/

namespace Readings

section Soundness
variable {grammar : Grammar} {tokens : Array Token}

theorem Derives.extent_eq {element : Element} {start stop : Nat} {tree : Tree}
    (derived : Derives grammar tokens element start stop tree) : tree.extent = ⟨start, stop⟩ := by
  cases derived with
  | token => rfl
  | application => rfl

theorem DerivesAll.tiles {elements start stop trees}
    (derived : DerivesAll grammar tokens elements start stop trees) :
    trees.length = elements.length ∧ Tree.Tiles start stop trees := by
  induction elements generalizing start trees with
  | nil =>
    cases derived
    exact ⟨rfl, .nil⟩
  | cons element elements ih =>
    cases derived with
    | cons first rest =>
      obtain ⟨lengths, tiles⟩ := ih rest
      refine ⟨congrArg (· + 1) lengths, Tree.tiles_cons_iff.mpr ?_⟩
      rw [first.extent_eq]
      exact ⟨⟨rfl, first.le⟩, tiles⟩

theorem Derives.rule_and_isTiled {element start stop} {node : Derivation}
    (derived : Derives grammar tokens element start stop node.tree) :
    node.rule < grammar.rules.size ∧ node.IsTiled grammar := by
  obtain ⟨rule, lhs, span, children⟩ := node
  cases derived with
  | application known below =>
    obtain ⟨definition, found, -⟩ := Grammar.rule_of_lhs known
    exact ⟨(Array.getElem?_eq_some_iff.mp found).1, below.tiles.1, below.tiles.2⟩

theorem IsReading.isSound_eq (short : tokens.size < countBound) {derivation : Derivation}
    (reading : IsReading grammar tokens derivation) :
    derivation.isSound grammar tokens.size = .ok true := by
  have whole : derivation.span = ⟨0, tokens.size⟩ := reading.extent_eq
  have nodes (node : Derivation) (member : node ∈ derivation.tree.nodes) :=
    (reading.of_node member).rule_and_isTiled
  have counted (token : Nat) (member : token ∈ derivation.tree.yields) : token + 1 < countBound := by
    rw [reading.yields, List.mem_range'_1] at member
    omega
  obtain ⟨sound, answered, accepts⟩ :=
    Tree.isSound_answers (fun node member => (nodes node member).1) counted
  rw [Derivation.isSound, if_pos whole, answered,
    accepts.mpr fun node member => (nodes node member).2]

end Soundness

namespace Analyzer.Narrowing

variable {analyzer : Analyzer} {tokens : Array Token} {selection : Selection} {forest : Forest}
  {ranked : List Derivation} (narrowing : analyzer.Narrowing tokens selection forest ranked)
include narrowing

theorem isSome_root_iff : forest.root.isSome = true ↔ selection.derivations ≠ [] := by
  cases narrowing with
  | nothing none => simp [Forest.empty, none]
  | whole some packs _ => simp [packs.rooted, some]
  | pruned some _ _ prunes _ => simp [prunes.rooted, some]

theorem ne_nil_iff : ranked ≠ [] ↔ selection.derivations ≠ [] := by
  cases narrowing with
  | nothing none => simp [none]
  | whole => rfl
  | @pruned _ _ _ top _ left some _ _ prunes trees =>
    refine iff_of_true ?_ some
    have positive := prunes.layered.length_pos top prunes.inside
    rw [trees, List.length_map] at positive
    apply List.ne_nil_of_length_pos
    rw [List.length_take]
    omega

theorem nodup (distinct : selection.derivations.Nodup) : ranked.Nodup := by
  cases narrowing with
  | nothing => exact List.nodup_nil
  | whole => exact distinct
  | pruned some packs _ prunes trees =>
    have apart := packs.distinct.sublist (prunes.sublist packs.layered)
    rw [trees] at apart
    exact (List.Nodup.of_map _ apart).sublist (List.take_sublist _ _)

theorem length_le
    (short : selection.derivations.length ≤ max analyzer.config.chart.maxDerivations 1) :
    ranked.length ≤ max analyzer.config.chart.maxDerivations 1 := by
  cases narrowing with
  | nothing => exact Nat.zero_le _
  | whole => exact short
  | pruned => exact List.length_take_le _ _

end Analyzer.Narrowing

theorem Chart.error?_eq_none_iff {chart : Chart} {tokens : Array Token} :
    chart.error? tokens = none ↔ chart.outcome = .success := by
  rw [Chart.error?]
  cases chart.outcome with
  | success => simp
  | limitExceeded => simp
  | failed position expected => cases found : tokens[position]? <;> simp [found]

/-- The parts of an analysis agree on whether it was a success, and its derivations are different
readings, as many as the limit allows. -/
structure Analysis.IsCoherent (grammar : Grammar) (tokens : Array Token) (limit : Nat)
    (analysis : Analysis) : Prop where
  error : analysis.isSuccess = true ↔ analysis.error = none
  derivations : analysis.isSuccess = true ↔ analysis.derivations ≠ []
  root : analysis.isSuccess = true ↔ analysis.forest.root.isSome = true
  ranking : analysis.isSuccess = true ↔ analysis.ranking.parses ≠ []
  readings : ∀ derivation ∈ analysis.derivations, IsReading grammar tokens derivation
  sound : ∀ derivation ∈ analysis.derivations, derivation.isSound grammar tokens.size = .ok true
  distinct : analysis.derivations.Nodup
  short : analysis.derivations.length ≤ max limit 1

/-- Every analysis is coherent, whatever the limits, the threshold for pruning and the scorer. -/
theorem analysis_coherent {draft : GrammarDraft} (analyzer : Analyzer)
    (built : draft.build = .ok analyzer.grammar) (tokens : List Token)
    (short : tokens.length < countBound) (discourse : Option Discourse) :
    ∃ analysis, analyzer.analyze tokens discourse = .ok analysis ∧
      analysis.IsCoherent analyzer.grammar tokens.toArray analyzer.config.chart.maxDerivations := by
  obtain ⟨analysis, analyzed, selects, assembles⟩ :=
    analyzer.exists_analysis (GrammarDraft.isBuilt built) short discourse
  have success : analysis.isSuccess = true ↔ analysis.result.chart.outcome = .success := by
    simp [Analysis.isSuccess, ParseResult.isSuccess, Chart.isSuccess]
  have derivations : analysis.isSuccess = true ↔ analysis.derivations ≠ [] := by
    rw [success, ← selects.some_iff, assembles.narrowing.ne_nil_iff]
  have readings := assembles.narrowing.readings selects.readings
  refine ⟨analysis, analyzed, ?_, derivations, ?_, ?_, readings, ?_, ?_, ?_⟩
  · rw [success, assembles.error, Chart.error?_eq_none_iff]
  · rw [success, ← selects.some_iff, assembles.narrowing.isSome_root_iff]
  · have lengths := (Scorer.rank_perm assembles.ranked).length_eq
    rw [List.length_map, List.length_range] at lengths
    rw [derivations, ← List.length_pos_iff, ← List.length_pos_iff, lengths]
  · exact fun derivation member => (readings derivation member).isSound_eq (by simpa using short)
  · exact assembles.narrowing.nodup selects.distinct
  · exact assembles.narrowing.length_le selects.short

/-- The derivations come back out of a pruned forest, which was packed from one of two readings. -/
theorem threeOnes_coherent :
    let analyzer := Analyzer.ofConfig sums { chart := { maxDerivations := 1 }, prune := some 1 }
    sumsDraft.build = .ok analyzer.grammar ∧ threeOnes.toList.length < countBound ∧
      ∃ analysis, analyzer.analyze threeOnes.toList none = .ok analysis ∧
        analysis.IsCoherent sums threeOnes.toList.toArray 1 ∧ analysis.isSuccess = true ∧
        analysis.derivations = [.leftSum] ∧ analysis.ambiguityPoints = [] := by
  intro analyzer
  have short : threeOnes.toList.length < countBound := by decide +kernel
  obtain ⟨analysis, analyzed, coherent⟩ :=
    analysis_coherent analyzer sumsDraft_builds threeOnes.toList short none
  have pruned : leftSumForest.pruned 1 = .ok leftSumForest := by cbv
  have listed : leftSumForest.derivations 1 = .ok ⟨[.leftSum], false⟩ := by cbv
  have points : leftSumForest.ambiguityPoints sums threeOnes = .ok [] := by cbv
  have narrowed : analyzer.narrow threeOnes.size ⟨[.leftSum], true⟩ =
      .ok (leftSumForest, ⟨[.leftSum], true⟩) := by
    simp only [Analyzer.narrow, analyzer, Analyzer.ofConfig, ofDerivations_leftSum, bind, Except.bind,
      pruned, listed]
    rfl
  obtain ⟨success, derivations, told⟩ := Analyzer.analyze_threeOnes rfl rfl narrowed analyzed
  exact ⟨sumsDraft_builds, short, analysis, analyzed, coherent, success,
    congrArg Selection.derivations derivations, Except.ok.inj (told.symm.trans points)⟩

end Readings
