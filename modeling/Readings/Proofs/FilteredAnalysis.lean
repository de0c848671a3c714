import Readings.Proofs.CanonicalForest
import Readings.Proofs.CoherentAnalysis

/-! A pruned analysis is the whole one, filtered. In a canonical forest a choice has all that occurs at
its place, so what survives there can be told from the derivations alone; and the trees that pruning
leaves are those in which every node survives, however the choices share their parts. -/

namespace Readings

def Grammar.priorityOf (grammar : Grammar) (packing : Packing) : Int :=
  ((grammar.rule? packing.rule).map (·.priority)).getD 0

private def Grammar.priorityOf? (grammar : Grammar) (packing : Option Packing) : Int :=
  (packing.map grammar.priorityOf).getD 0

/-- What survives at a place, of all that occurs there in some derivations. -/
def survivorsAt (grammar : Grammar) (threshold : Int) (derivations : List Derivation) (place : Slot) :
    List Packing :=
  survivorsBy grammar.priorityOf threshold (packingsAt derivations place)

/-- Whether every rule application of a tree survives at its place. -/
def Tree.Survives (grammar : Grammar) (threshold : Int) (derivations : List Derivation)
    (tree : Tree) : Prop :=
  ∀ node ∈ tree.nodes, node.packing ∈ survivorsAt grammar threshold derivations node.slot

instance (grammar : Grammar) (threshold : Int) (derivations : List Derivation) (tree : Tree) :
    Decidable (tree.Survives grammar threshold derivations) :=
  inferInstanceAs (Decidable (∀ node ∈ tree.nodes, _))

def Analyzer.withPrune (analyzer : Analyzer) (prune : Option Int) : Analyzer :=
  { analyzer with config := { analyzer.config with prune } }

variable {grammar : Grammar} {tokens : Array Token} {derivations : List Derivation} {forest : Forest}
  {threshold : Int}

theorem Tree.survives_node {rule : RuleId} {lhs : Symbol} {span : TokenSpan} {children : List Tree} :
    (Tree.node rule lhs span children).Survives grammar threshold derivations ↔
      ⟨rule, children.map Tree.part⟩ ∈ survivorsAt grammar threshold derivations ⟨lhs, span⟩ ∧
        ∀ child ∈ children, child.Survives grammar threshold derivations := by
  simp only [Survives, Tree.nodes, List.forall_mem_cons, Tree.mem_nodesOf]
  constructor
  · rintro ⟨here, below⟩
    exact ⟨here, fun child inside node member => below node ⟨child, inside, member⟩⟩
  · rintro ⟨here, below⟩
    refine ⟨here, ?_⟩
    rintro node ⟨child, inside, member⟩
    exact below child inside node member

namespace Forest

theorem exists_application {id : NodeId} {packing : Packing} (packs : forest.packing? id = some packing) :
    ∃ symbol span children priority action,
      forest.node? id = some (.application packing.rule symbol span children priority action) := by
  rw [packing?] at packs
  split at packs
  next rule symbol span children priority action found =>
    obtain rfl := Option.some.inj packs
    exact ⟨symbol, span, children, priority, action, found⟩
  next => cases packs

private theorem exists_packing {alternatives : List NodeId} {packings : List Packing}
    (same : alternatives.map forest.packing? = packings.map some) {alternative : NodeId}
    (member : alternative ∈ alternatives) :
    ∃ packing ∈ packings, forest.packing? alternative = some packing := by
  have listed := List.mem_map_of_mem (f := forest.packing?) member
  rw [same] at listed
  obtain ⟨packing, inside, packs⟩ := List.mem_map.mp listed
  exact ⟨packing, inside, packs.symm⟩

namespace IsCanonical

theorem priorityOf_eq (canonical : forest.IsCanonical grammar tokens derivations) {id : NodeId}
    {packing : Packing} (packs : forest.packing? id = some packing) :
    forest.priorityOf id = grammar.priorityOf packing := by
  obtain ⟨symbol, span, children, priority, action, found⟩ := exists_application packs
  obtain ⟨definition, known, same, -⟩ := canonical.labels id _ _ _ _ _ _ found
  have defined : grammar.rule? packing.rule = some definition := by
    rw [Grammar.rule] at known
    split at known
    next other there => exact there.trans (congrArg some (Except.ok.inj known))
    next => cases known
  simp only [priorityOf, found, Grammar.priorityOf, defined, Option.bind_some, ForestNode.priority?,
    Option.map_some, Option.getD_some, same]

/-- The alternatives of a choice that survive are those whose applications do. -/
theorem mem_survivors (canonical : forest.IsCanonical grammar tokens derivations) {place : Slot}
    {alternatives : List NodeId} (distinct : (alternatives.map forest.packing?).Nodup)
    (same : alternatives.map forest.packing? = (packingsAt derivations place).map some)
    {alternative : NodeId} :
    alternative ∈ forest.survivors threshold alternatives ↔ alternative ∈ alternatives ∧
      ∃ packing ∈ survivorsAt grammar threshold derivations place,
        forest.packing? alternative = some packing := by
  have priorities : ∀ id ∈ alternatives,
      grammar.priorityOf? (forest.packing? id) = forest.priorityOf id := by
    intro id member
    obtain ⟨packing, -, packs⟩ := exists_packing same member
    rw [packs, canonical.priorityOf_eq packs]
    rfl
  have images : (forest.survivors threshold alternatives).map forest.packing? =
      (survivorsAt grammar threshold derivations place).map some := by
    rw [survivors_eq, survivorsAt, ← survivorsBy_map priorities, same]
    have kept : ∀ packing ∈ packingsAt derivations place,
        grammar.priorityOf? (some packing) = grammar.priorityOf packing := fun _ _ => rfl
    exact survivorsBy_map kept
  constructor
  · intro survives
    exact ⟨(survivors_spec alternatives).1.subset survives, exists_packing images survives⟩
  · rintro ⟨member, packing, kept, packs⟩
    have listed := List.mem_map_of_mem (f := some) kept
    rw [← images, ← packs] at listed
    obtain ⟨other, survives, equal⟩ := List.mem_map.mp listed
    have inside := (survivors_spec alternatives).1.subset survives
    exact List.inj_on_of_nodup_map distinct inside member equal ▸ survives

end IsCanonical

/-- Whether a tree that pruning leaves at a node is one that was there and survives. -/
def Filters (grammar : Grammar) (threshold : Int) (derivations : List Derivation) (forest : Forest)
    (id : NodeId) : Prop :=
  ∀ tree, tree ∈ forest.survivingTrees threshold id ↔
    tree ∈ forest.trees id ∧ tree.Survives grammar threshold derivations

private theorem forall₂_filters {children : List NodeId} {trees : List Tree}
    (below : ∀ child ∈ children, forest.Filters grammar threshold derivations child) :
    List.Forall₂ (fun tree child => tree ∈ forest.survivingTrees threshold child) trees children ↔
      List.Forall₂ (fun tree child => tree ∈ forest.trees child) trees children ∧
        ∀ tree ∈ trees, tree.Survives grammar threshold derivations := by
  induction children generalizing trees with
  | nil =>
    rw [List.forall₂_nil_right_iff, List.forall₂_nil_right_iff]
    exact ⟨fun none => ⟨none, by simp [none]⟩, And.left⟩
  | cons child children ih =>
    rw [List.forall_mem_cons] at below
    cases trees with
    | nil => exact iff_of_false (by rintro ⟨⟩) (by rintro ⟨⟨⟩, -⟩)
    | cons tree trees =>
      rw [List.forall₂_cons, List.forall₂_cons, List.forall_mem_cons, below.1 tree, ih below.2]
      exact and_and_and_comm

/-- An application that survives has the trees that survive, and one that does not has none of them. -/
private theorem application_filters (arranged : forest.Arranged) {id : NodeId} {rule : RuleId}
    {symbol : Symbol} {span : TokenSpan} {children : List NodeId} {priority : Int} {action : Option String}
    (found : forest.node? id = some (.application rule symbol span children priority action))
    (below : ∀ child ∈ children, forest.Filters grammar threshold derivations child)
    {packing : Packing} (packs : forest.packing? id = some packing) {tree : Tree} :
    tree ∈ forest.survivingTrees threshold id ∧
        packing ∈ survivorsAt grammar threshold derivations ⟨symbol, span⟩ ↔
      tree ∈ forest.trees id ∧ tree.Survives grammar threshold derivations := by
  rw [arranged.layered.mem_survivingTrees_application found]
  have told : ∀ trees, Tree.node rule symbol span trees ∈ forest.trees id →
      packing = ⟨rule, trees.map Tree.part⟩ := by
    intro trees member
    have same := (arranged.packing_eq found ⟨rule, children, priority, action, rfl⟩
      (show (Derivation.mk rule symbol span trees).tree ∈ forest.trees id from member)).2
    exact Option.some.inj (packs.symm.trans same)
  constructor
  · rintro ⟨⟨trees, rfl, made⟩, kept⟩
    obtain ⟨there, survive⟩ := (forall₂_filters below).mp made
    have member := (arranged.layered.mem_trees_application found).mpr ⟨trees, rfl, there⟩
    exact ⟨member, Tree.survives_node.mpr ⟨told trees member ▸ kept, survive⟩⟩
  · rintro ⟨member, survives⟩
    obtain ⟨trees, rfl, there⟩ := (arranged.layered.mem_trees_application found).mp member
    obtain ⟨kept, survive⟩ := Tree.survives_node.mp survives
    exact ⟨⟨trees, rfl, (forall₂_filters below).mpr ⟨there, survive⟩⟩, told trees member ▸ kept⟩

private theorem leaf_filters (layered : forest.Layered) {id : NodeId} {token : Nat}
    (leaf : forest.part? id = some (.leaf token)) :
    forest.Filters grammar threshold derivations id := by
  obtain ⟨node, found, same⟩ := Option.map_eq_some_iff.mp leaf
  cases node with
  | choice => cases same
  | application => cases same
  | leaf own span =>
    intro tree
    rw [layered.survivingTrees_eq found, layered.trees_eq found]
    refine ⟨fun member => ⟨member, ?_⟩, And.left⟩
    obtain rfl := List.mem_singleton.mp member
    exact fun node inside => absurd inside List.not_mem_nil

section
variable (canonical : forest.IsCanonical grammar tokens derivations) (arranged : forest.Arranged)
  {place : Slot} {id : NodeId}
  (below : ∀ {other rule symbol span children priority action}, other ≤ id →
    forest.node? other = some (.application rule symbol span children priority action) →
    ∀ child ∈ children, forest.Filters grammar threshold derivations child)
include arranged below

private theorem only_filters {only : Packing} (alone : packingsAt derivations place = [only])
    (part : forest.part? id = some (.slot place)) (packs : forest.packing? id = some only) :
    forest.Filters grammar threshold derivations id := by
  obtain ⟨symbol, span, children, priority, action, found⟩ := exists_application packs
  rw [part?, found] at part
  obtain rfl : _ = place := Part.slot.inj (Option.some.inj part)
  have kept : only ∈ survivorsAt grammar threshold derivations ⟨symbol, span⟩ := by
    rw [survivorsAt, alone, survivorsBy_singleton]
    exact List.mem_cons_self
  intro tree
  rw [← application_filters arranged found (below (Nat.le_refl id) found) packs]
  exact (and_iff_left kept).symm

include canonical in
private theorem choice_filters {alternatives : List NodeId}
    (found : forest.node? id = some (.choice place.symbol place.span alternatives))
    (same : alternatives.map forest.packing? = (packingsAt derivations place).map some) :
    forest.Filters grammar threshold derivations id := by
  have applied : ∀ alternative ∈ alternatives, ∀ packing, forest.packing? alternative = some packing →
      ∀ tree, tree ∈ forest.survivingTrees threshold alternative ∧
          packing ∈ survivorsAt grammar threshold derivations place ↔
        tree ∈ forest.trees alternative ∧ tree.Survives grammar threshold derivations := by
    intro alternative member packing packs tree
    obtain ⟨node, there, rule, children, priority, action, rfl⟩ :=
      arranged.applied id _ _ _ found alternative member
    have earlier := arranged.layered.earlier id _ found alternative member
    exact application_filters arranged there (below (Nat.le_of_lt earlier) there) packs
  have survive : ∀ {alternative}, alternative ∈ forest.survivors threshold alternatives ↔
      alternative ∈ alternatives ∧ ∃ packing ∈ survivorsAt grammar threshold derivations place,
        forest.packing? alternative = some packing :=
    canonical.mem_survivors (arranged.distinct id _ _ _ found) same
  intro tree
  rw [arranged.layered.mem_survivingTrees_choice found, arranged.layered.mem_trees_choice found]
  constructor
  · rintro ⟨alternative, left, made⟩
    obtain ⟨member, packing, kept, packs⟩ := survive.mp left
    obtain ⟨there, survives⟩ := (applied alternative member packing packs tree).mp ⟨made, kept⟩
    exact ⟨⟨alternative, member, there⟩, survives⟩
  · rintro ⟨⟨alternative, member, there⟩, survives⟩
    obtain ⟨packing, -, packs⟩ := exists_packing same member
    obtain ⟨made, kept⟩ := (applied alternative member packing packs tree).mpr ⟨there, survives⟩
    exact ⟨alternative, survive.mpr ⟨member, packing, kept, packs⟩, made⟩

end

/-- At every leaf and every head, pruning leaves the trees that survive. -/
theorem IsCanonical.filters (canonical : forest.IsCanonical grammar tokens derivations)
    (arranged : forest.Arranged) (threshold : Int) (id : NodeId) :
    ((∃ token, forest.part? id = some (.leaf token)) ∨ ∃ place, forest.IsHead place id) →
      forest.Filters grammar threshold derivations id := by
  induction id using Nat.strongRecOn with
  | ind id ih =>
    -- An alternative of a choice is no head: what is below it is known, and what is said of it depends
    -- on whether it survives.
    have below : ∀ {other rule symbol span children priority action}, other ≤ id →
        forest.node? other = some (.application rule symbol span children priority action) →
        ∀ child ∈ children, forest.Filters grammar threshold derivations child := by
      intro other rule symbol span children priority action atMost found child inside
      have earlier := arranged.layered.earlier other _ found child inside
      exact ih child (Nat.lt_of_lt_of_le earlier atMost)
        (canonical.children other _ _ _ _ _ _ found child inside)
    rintro (⟨token, leaf⟩ | ⟨place, head⟩)
    · exact leaf_filters arranged.layered leaf
    · obtain ⟨derivation, known, node, inside, rfl⟩ := canonical.placed id place head.1
      obtain ⟨shown, shows, unique⟩ := canonical.heads derivation known node inside
      obtain rfl := (unique id).mp head
      rcases shows.cases with ⟨only, alone, part, packs⟩ | ⟨alternatives, found, same⟩
      · exact only_filters arranged below alone part packs
      · exact choice_filters canonical arranged below found same

end Forest

theorem Packs.left_perm {packed : Forest} {root : NodeId}
    (packs : Packs grammar tokens derivations packed root)
    (canonical : packed.IsCanonical grammar tokens derivations) (distinct : derivations.Nodup)
    (complete : ∀ derivation, IsReading grammar tokens derivation → derivation ∈ derivations)
    {left : List Derivation} (trees : packed.survivingTrees threshold root = left.map Derivation.tree) :
    left.Perm (derivations.filter fun derivation =>
      decide (derivation.tree.Survives grammar threshold derivations)) := by
  obtain ⟨top, rooted, -, head, -⟩ := canonical.rooted
  obtain rfl := Option.some.inj (packs.rooted.symm.trans rooted)
  have filters := canonical.filters packs.arranged threshold root (Or.inr ⟨_, head⟩)
  have apart := packs.distinct.sublist (packs.layered.survivingTrees_sublist threshold root)
  rw [trees] at apart
  refine (List.perm_ext_iff_of_nodup (List.Nodup.of_map _ apart) (distinct.filter _)).mpr ?_
  intro derivation
  have listed : derivation.tree ∈ packed.survivingTrees threshold root ↔ derivation ∈ left := by
    rw [trees, List.mem_map_of_injective Derivation.tree_injective]
  rw [← listed, filters, List.mem_filter, decide_eq_true_eq]
  refine and_congr_left fun _ => ⟨fun member => ?_, packs.complete derivation⟩
  exact complete derivation (packs.sound _ member)

namespace Analyzer

variable {analyzer : Analyzer} {selection ranked : Selection} {tokenCount : Nat}

/-- Without a threshold the derivations to rank are those extracted. -/
theorem narrow_whole (chosen : analyzer.config.prune = none)
    (narrowed : analyzer.narrow tokenCount selection = .ok (forest, ranked)) : ranked = selection := by
  simp only [narrow, chosen] at narrowed
  obtain ⟨packed, -, made⟩ := bind_eq_ok_iff.mp narrowed
  cases made
  rfl

theorem narrow_nothing (chosen : analyzer.config.prune = some threshold)
    (nothing : selection.derivations = [])
    (narrowed : analyzer.narrow tokenCount selection = .ok (forest, ranked)) :
    ranked = ⟨[], selection.truncated⟩ := by
  simp only [narrow, chosen, nothing, Forest.ofDerivations] at narrowed
  cases narrowed
  simp [Selection.none]

/-- With a threshold they are those that survive, unless some were left out before. -/
theorem narrow_filtered (analyzer : Analyzer) {config : ChartConfig}
    (acyclic : unitCycle? analyzer.grammar.rules.toList = none)
    (bound : tokens.size < countBound)
    (selects : (Chart.build analyzer.grammar config tokens).Selects analyzer.grammar tokens
      analyzer.config.chart.maxDerivations selection)
    (chosen : analyzer.config.prune = some threshold)
    (narrowed : analyzer.narrow tokens.size selection = .ok (forest, ranked)) :
    ranked.truncated = selection.truncated ∧ (selection.truncated = false →
      ranked.derivations.Perm (selection.derivations.filter fun derivation =>
        decide (derivation.tree.Survives analyzer.grammar threshold selection.derivations))) := by
  by_cases nothing : selection.derivations = []
  · rw [narrow_nothing chosen nothing narrowed, nothing]
    exact ⟨rfl, fun _ => List.Perm.refl []⟩
  obtain ⟨packed, root, made, packs⟩ := exists_packed acyclic bound nothing selects.readings
  obtain ⟨twin, again, canonical⟩ := exists_canonical acyclic bound nothing selects.readings
  obtain rfl := Except.ok.inj (made.symm.trans again)
  obtain ⟨pruned, top, left, prunes, trees, answer⟩ := narrow_pruned made packs chosen
  obtain ⟨-, rfl⟩ := Prod.mk.inj (Except.ok.inj (narrowed.symm.trans answer))
  cases whole : selection.truncated with
  | true => exact ⟨rfl, fun more => absurd more (by decide)⟩
  | false =>
    have complete : ∀ derivation, IsReading analyzer.grammar tokens derivation →
        derivation ∈ selection.derivations :=
      fun derivation reading => selects.complete acyclic nothing whole reading
    have perm := packs.left_perm canonical selects.distinct complete (prunes.trees ▸ trees)
    have few : left.length ≤ max analyzer.config.chart.maxDerivations 1 := by
      rw [perm.length_eq]
      exact Nat.le_trans (List.length_filter_le _ _) selects.short
    rw [List.take_of_length_le few]
    exact ⟨decide_eq_false (Nat.not_lt.mpr few), fun _ => perm⟩

end Analyzer

/-- Pruning an analysis is filtering it. -/
theorem pruned_analysis_filtered {draft : GrammarDraft} (analyzer : Analyzer)
    (built : draft.build = .ok analyzer.grammar) (tokens : List Token)
    (short : tokens.length < countBound) (discourse : Option Discourse) (threshold : Int) :
    ∃ whole pruned, (analyzer.withPrune none).analyze tokens discourse = .ok whole ∧
      (analyzer.withPrune (some threshold)).analyze tokens discourse = .ok pruned ∧
      pruned.truncated = whole.truncated ∧
      (whole.truncated = false → pruned.derivations.Perm (whole.derivations.filter fun derivation =>
        decide (derivation.tree.Survives analyzer.grammar threshold whole.derivations))) ∧
      (whole.derivations ≠ [] → pruned.derivations ≠ []) := by
  have isBuilt := GrammarDraft.isBuilt built
  have bound : tokens.toArray.size < countBound := by simpa using short
  obtain ⟨result, parsed, same, selects⟩ :=
    isBuilt.exists_parsed analyzer.config.chart tokens.toArray
  obtain ⟨whole, assembled, kept, assembles⟩ :=
    (analyzer.withPrune none).exists_assembled isBuilt short discourse selects.readings
  obtain ⟨pruned, again, there, prunes⟩ :=
    (analyzer.withPrune (some threshold)).exists_assembled isBuilt short discourse selects.readings
  have all := Analyzer.narrow_whole rfl (kept ▸ assembles.narrowed)
  have left := (analyzer.withPrune (some threshold)).narrow_filtered isBuilt.acyclic bound
    (same ▸ selects) rfl (there ▸ prunes.narrowed)
  rw [← all] at left
  refine ⟨whole, pruned, ?_, ?_, left.1, left.2, ?_⟩
  · exact bind_eq_ok_iff.mpr ⟨result, parsed, assembled⟩
  · exact bind_eq_ok_iff.mpr ⟨result, parsed, again⟩
  · rw [assembles.narrowing.ne_nil_iff, prunes.narrowing.ne_nil_iff, kept, there]
    exact id

/-- No rule of the sums reaches the threshold, so the place at which the readings part keeps its first. -/
theorem threeOnes_filtered :
    let analyzer := Analyzer.ofConfig sums {}
    sumsDraft.build = .ok analyzer.grammar ∧ threeOnes.toList.length < countBound ∧
      ∃ whole pruned, (analyzer.withPrune none).analyze threeOnes.toList none = .ok whole ∧
        (analyzer.withPrune (some 1)).analyze threeOnes.toList none = .ok pruned ∧
        pruned.truncated = whole.truncated ∧
        (whole.truncated = false → pruned.derivations.Perm (whole.derivations.filter fun derivation =>
          decide (derivation.tree.Survives sums 1 whole.derivations))) ∧
        (whole.derivations ≠ [] → pruned.derivations ≠ []) ∧
        whole.isSuccess = true ∧ whole.truncated = false ∧
        whole.derivations = [.leftSum, .rightSum] ∧ whole.ambiguityPoints.length = 1 ∧
        pruned.derivations = [.leftSum] ∧ pruned.ambiguityPoints = [] := by
  intro analyzer
  have short : threeOnes.toList.length < countBound := by decide +kernel
  obtain ⟨whole, pruned, all, left, same, filtered, some⟩ :=
    pruned_analysis_filtered analyzer sumsDraft_builds threeOnes.toList short none 1
  have uncut : (analyzer.withPrune none).narrow threeOnes.size ⟨[.leftSum, .rightSum], false⟩ =
      .ok (sumsForest, ⟨[.leftSum, .rightSum], false⟩) := by
    simp only [Analyzer.narrow, Analyzer.withPrune, analyzer, Analyzer.ofConfig, ofDerivations_sums]
    rfl
  have cut : sumsForest.pruned 1 = .ok leftSumForest := by cbv
  have listed : leftSumForest.derivations 64 = .ok ⟨[.leftSum], false⟩ := by cbv
  have narrowed : (analyzer.withPrune (.some 1)).narrow threeOnes.size ⟨[.leftSum, .rightSum], false⟩ =
      .ok (leftSumForest, ⟨[.leftSum], false⟩) := by
    simp only [Analyzer.narrow, Analyzer.withPrune, analyzer, Analyzer.ofConfig, ofDerivations_sums, bind,
      Except.bind, cut, listed]
    rfl
  obtain ⟨success, two, points⟩ := Analyzer.analyze_threeOnes rfl rfl uncut all
  obtain ⟨-, one, noPoints⟩ := Analyzer.analyze_threeOnes rfl rfl narrowed left
  have single : (sumsForest.ambiguityPoints sums threeOnes).map List.length = .ok 1 := by cbv
  have none : leftSumForest.ambiguityPoints sums threeOnes = .ok [] := by cbv
  rw [points] at single
  exact ⟨sumsDraft_builds, short, whole, pruned, all, left, same, filtered, some, success,
    congrArg Selection.truncated two, congrArg Selection.derivations two, Except.ok.inj single,
    congrArg Selection.derivations one, Except.ok.inj (noPoints.symm.trans none)⟩

end Readings
