import Mathlib.Data.List.Permutation
import Readings.Proofs.Extraction
import Readings.Proofs.PackedForest
import Readings.Proofs.WellFormedForest

/-! The forest of extracted derivations enumerates nothing but readings, loses none of those extracted
and repeats none. If extraction found all readings, the forest gives them back. -/

namespace Readings

variable {grammar : Grammar} {tokens : Array Token} {derivations : List Derivation} {forest : Forest}
  {root : NodeId}

theorem Packs.exists_map_tree (packs : Packs grammar tokens derivations forest root) {trees : List Tree}
    (inside : trees ⊆ forest.trees root) :
    ∃ readings : List Derivation, trees = readings.map Derivation.tree := by
  apply Readings.exists_map_tree
  intro tree member
  cases packs.sound tree (inside member) with
  | @application rule _ _ _ children => exact ⟨⟨rule, grammar.start, ⟨0, tokens.size⟩, children⟩, rfl⟩

structure Enumerates (grammar : Grammar) (tokens : Array Token) (derivations : List Derivation)
    (forest : Forest) (all : List Derivation) : Prop where
  distinct : all.Nodup
  complete : derivations ⊆ all
  sound : ∀ derivation ∈ all, IsReading grammar tokens derivation
  selects : ∀ limit, forest.derivations limit =
    .ok ⟨all.take (max limit 1), decide (max limit 1 < all.length)⟩
  counts : ∃ stats, forest.stats = .ok stats ∧ stats.derivations = min all.length derivationCountMax

theorem Packs.exists_enumerates (packs : Packs grammar tokens derivations forest root) :
    ∃ all, Enumerates grammar tokens derivations forest all := by
  obtain ⟨all, trees⟩ := packs.exists_map_tree (List.Subset.refl (forest.trees root))
  have lengths : (forest.trees root).length = all.length := by rw [trees, List.length_map]
  refine ⟨all, List.Nodup.of_map Derivation.tree (trees ▸ packs.distinct), ?_, ?_, ?_, ?_⟩
  · intro derivation member
    obtain ⟨other, inside, same⟩ := List.mem_map.mp (trees ▸ packs.complete derivation member)
    obtain rfl : other = derivation := Derivation.tree_injective same
    exact inside
  · intro derivation member
    exact packs.sound _ (trees ▸ List.mem_map_of_mem member)
  · intro limit
    rw [packs.layered.derivations_eq packs.rooted packs.inside, lengths, trees, ← List.map_take,
      filterMap_toDerivation?]
  · obtain ⟨stats, found, count⟩ := packs.layered.stats_eq packs.rooted packs.inside
    exact ⟨stats, found, count.trans (congrArg capped lengths)⟩

/-- The packed forest of extracted derivations loses and invents no reading. -/
theorem forest_exact {draft : GrammarDraft} {grammar : Grammar} (built : draft.build = .ok grammar)
    (config : ChartConfig) (tokens : Array Token) (short : tokens.size < countBound)
    (success : (Chart.build grammar config tokens).outcome = .success) (limit : Nat)
    (fits : limit < countBound) :
    ∃ selection forest all stats,
      (Chart.build grammar config tokens).extract grammar limit = .ok selection ∧
      Forest.ofDerivations grammar selection.derivations tokens.size = .ok forest ∧
      forest.stats = .ok stats ∧
      (∀ most, forest.derivations most =
        .ok ⟨all.take (max most 1), decide (max most 1 < all.length)⟩) ∧
      all.Nodup ∧ selection.derivations ⊆ all ∧
      (∀ derivation ∈ all, IsReading grammar tokens derivation) ∧
      stats.derivations = min all.length derivationCountMax ∧
      (selection.truncated = false →
        all.Perm selection.derivations ∧ stats.derivations = selection.derivations.length) := by
  have acyclic := GrammarDraft.acyclic_of_build built
  obtain ⟨readings, distinct, mem_iff, extracted⟩ := Chart.exists_readings acyclic success
  have some : readings.take (max limit 1) ≠ [] := by
    obtain ⟨saturated, verdict⟩ := Chart.build_saturated (Chart.within_of_success success)
    obtain ⟨reading, known⟩ := (verdict.success_iff saturated).mp success
    have positive := List.length_pos_of_mem ((mem_iff reading).mpr known)
    apply List.ne_nil_of_length_pos
    rw [List.length_take]
    omega
  obtain ⟨forest, root, packed, packs⟩ := exists_packed acyclic short some fun derivation member =>
    (mem_iff derivation).mp (List.mem_of_mem_take member)
  obtain ⟨all, enumerates⟩ := packs.exists_enumerates
  obtain ⟨stats, counted, count⟩ := enumerates.counts
  refine ⟨_, forest, all, stats, extracted limit, packed, counted, enumerates.selects,
    enumerates.distinct, enumerates.complete, enumerates.sound, count, ?_⟩
  intro whole
  have few : readings.length ≤ max limit 1 := Nat.le_of_not_lt (of_decide_eq_false whole)
  have same : all.Perm readings := by
    apply (List.perm_ext_iff_of_nodup enumerates.distinct distinct).mpr
    intro derivation
    rw [mem_iff]
    refine ⟨enumerates.sound derivation, ?_⟩
    intro reading
    apply enumerates.complete
    rw [List.take_of_length_le few]
    exact (mem_iff derivation).mpr reading
  rw [List.take_of_length_le few]
  refine ⟨same, ?_⟩
  have countable : readings.length ≤ derivationCountMax := by
    simp only [derivationCountMax, countBound, UInt64.size] at fits ⊢
    omega
  rw [count, same.length_eq]
  exact Nat.min_eq_left countable

/-- The forest of the two readings of three ones, which part at the root. -/
def sumsForest : Forest where
  nodes :=
    #[.application 2 1 ⟨0, 0⟩ [] 0 none, .leaf 0 ⟨0, 1⟩, .application 1 0 ⟨0, 1⟩ [1] 0 none,
      .leaf 1 ⟨1, 2⟩, .leaf 2 ⟨2, 3⟩, .application 1 0 ⟨2, 3⟩ [4] 0 none,
      .application 0 0 ⟨0, 3⟩ [0, 2, 3, 5] 0 none, .leaf 3 ⟨3, 4⟩, .leaf 4 ⟨4, 5⟩,
      .application 1 0 ⟨4, 5⟩ [8] 0 none, .application 0 0 ⟨0, 5⟩ [0, 6, 7, 9] 0 none,
      .application 2 1 ⟨2, 2⟩ [] 0 none, .application 0 0 ⟨2, 5⟩ [11, 5, 7, 9] 0 none,
      .application 0 0 ⟨0, 5⟩ [0, 2, 3, 12] 0 none, .choice 0 ⟨0, 5⟩ [10, 13]]
  root := some 14
  tokenCount := 5

theorem ofDerivations_sums :
    Forest.ofDerivations sums [.leftSum, .rightSum] threeOnes.size = .ok sumsForest := by
  have places : (Filing.ofDerivations [.leftSum, .rightSum]).slots.size = 8 := by
    simp +decide [Filing.ofDerivations, Derivation.leftSum, Derivation.rightSum, Derivation.tree,
      Tree.packings, Tree.packingsOf, Tree.part, Filing.add, Filing.empty, Filing.alternatives,
      Std.HashMap.getD_insert, Std.HashMap.size_insert, Std.HashMap.mem_insert]
  simp only [Forest.ofDerivations, places]
  cbv

/-- The first of the two readings alone, which is also what pruning the forest of both leaves. -/
def leftSumForest : Forest where
  nodes := sumsForest.nodes.extract 0 11
  root := some 10
  tokenCount := 5

theorem ofDerivations_leftSum :
    Forest.ofDerivations sums [.leftSum] threeOnes.size = .ok leftSumForest := by
  have places : (Filing.ofDerivations [.leftSum]).slots.size = 6 := by
    simp +decide [Filing.ofDerivations, Derivation.leftSum, Derivation.tree, Tree.packings,
      Tree.packingsOf, Tree.part, Filing.add, Filing.empty, Filing.alternatives,
      Std.HashMap.getD_insert, Std.HashMap.size_insert, Std.HashMap.mem_insert]
  simp only [Forest.ofDerivations, places]
  cbv

theorem threeOnes_packed :
    sumsDraft.build = .ok sums ∧ threeOnes.size < countBound ∧
      (Chart.build sums {} threeOnes).outcome = .success ∧ 64 < countBound ∧
      ∃ selection forest all stats,
        (Chart.build sums {} threeOnes).extract sums 64 = .ok selection ∧
        Forest.ofDerivations sums selection.derivations threeOnes.size = .ok forest ∧
        forest.stats = .ok stats ∧
        (∀ most, forest.derivations most =
          .ok ⟨all.take (max most 1), decide (max most 1 < all.length)⟩) ∧
        all.Nodup ∧ selection.derivations ⊆ all ∧
        (∀ derivation ∈ all, IsReading sums threeOnes derivation) ∧
        stats.derivations = min all.length derivationCountMax ∧
        (selection.truncated = false →
          all.Perm selection.derivations ∧ stats.derivations = selection.derivations.length) ∧
        selection = ⟨[.leftSum, .rightSum], false⟩ ∧ forest = sumsForest ∧ all.length = 2 ∧
        stats.derivations = 2 := by
  have success : (Chart.build sums {} threeOnes).outcome = .success := by decide +kernel
  have short : threeOnes.size < countBound := by decide +kernel
  have fits : 64 < countBound := by decide
  obtain ⟨selection, forest, all, stats, extracted, packed, counted, lists, distinct, complete, sound,
    count, whole⟩ := forest_exact sumsDraft_builds {} threeOnes short success 64 fits
  obtain rfl : selection = ⟨[.leftSum, .rightSum], false⟩ :=
    Except.ok.inj (extracted.symm.trans (extract_threeOnes 64))
  obtain rfl : forest = sumsForest := Except.ok.inj (packed.symm.trans ofDerivations_sums)
  obtain ⟨same, two⟩ := whole rfl
  exact ⟨sumsDraft_builds, short, success, fits, _, _, all, stats, extracted, packed, counted, lists,
    distinct, complete, sound, count, whole, rfl, rfl, same.length_eq, two⟩

end Readings
