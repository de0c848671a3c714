import Readings.Proofs.ArrangedForest
import Readings.Proofs.ForestCounts
import Mathlib.Data.Set.List

/-! Well-formed forests, wherever they come from. Nodes refer to nodes before them, so the number of
trees below a node is well defined: one below a leaf, the product over the children of an application,
the sum over the alternatives of a choice. Counting finds this number, and enumerating lists as many
trees, however the nodes share what is below them. -/

namespace Readings

theorem exists_map_tree {trees : List Tree}
    (made : ∀ tree ∈ trees, ∃ derivation : Derivation, derivation.tree = tree) :
    ∃ derivations : List Derivation, trees = derivations.map Derivation.tree := by
  have within : trees ∈ Set.range (List.map Derivation.tree) := by
    rw [Set.range_list_map]
    exact made
  obtain ⟨derivations, same⟩ := within
  exact ⟨derivations, same.symm⟩

theorem filterMap_toDerivation? (derivations : List Derivation) :
    (derivations.map Derivation.tree).filterMap Tree.toDerivation? = derivations := by
  rw [List.filterMap_map]
  exact List.filterMap_some

def ForestNode.treeCount (counts : NodeId → Nat) : ForestNode → Nat
  | .leaf _ _ => 1
  | .choice _ _ alternatives => (alternatives.map counts).sum
  | .application _ _ _ children _ _ => (children.map counts).prod

theorem ForestNode.treeCount_congr {counts others : NodeId → Nat} {node : ForestNode}
    (same : ∀ child ∈ node.successors, counts child = others child) :
    node.treeCount counts = node.treeCount others := by
  cases node with
  | leaf token span => rfl
  | choice symbol span alternatives => exact congrArg List.sum (List.map_congr_left same)
  | application rule symbol span children priority action =>
    exact congrArg List.prod (List.map_congr_left same)

theorem ForestNode.length_fullTrees (lists : NodeId → List Tree) (node : ForestNode) :
    (node.fullTrees lists).length = node.treeCount fun child => (lists child).length := by
  cases node with
  | leaf token span => rfl
  | choice symbol span alternatives => exact List.length_flatMap
  | application rule symbol span children priority action =>
    rw [fullTrees, List.length_map, length_sequences]
    rfl

namespace Forest

def treeCount (forest : Forest) (id : NodeId) : Nat :=
  match forest.node? id with
  | none => 0
  | some node => node.treeCount fun child => if child < id then forest.treeCount child else 0
termination_by id

variable {forest : Forest} {root id : NodeId} {node : ForestNode}

theorem layered_of_isWellFormed (wellFormed : forest.isWellFormed = true) : forest.Layered := by
  have proper := isWellFormed_iff.mp wellFormed
  constructor
  · intro id node found child below
    exact ((proper id node found).1 child below).1
  · intro id symbol span alternatives found none
    have several := ((proper id _ found).2 symbol span alternatives rfl).1
    rw [none] at several
    exact absurd several (by decide)

theorem Layered.treeCount_eq (layered : forest.Layered) (found : forest.node? id = some node) :
    forest.treeCount id = node.treeCount forest.treeCount := by
  rw [treeCount, found]
  apply ForestNode.treeCount_congr
  intro child below
  exact if_pos (layered.earlier id node found child below)

theorem Layered.length_trees (layered : forest.Layered) (id : NodeId) :
    (forest.trees id).length = forest.treeCount id := by
  induction id using Nat.strongRecOn with
  | ind id ih =>
    cases found : forest.node? id with
    | none =>
      rw [trees, treeCount, found]
      rfl
    | some node =>
      rw [layered.trees_eq found, layered.treeCount_eq found, ForestNode.length_fullTrees]
      apply ForestNode.treeCount_congr
      intro child below
      exact ih child (layered.earlier id node found child below)

/-- Counting ends for every number, also for one that no node has. -/
theorem Layered.countDerivations_eq (layered : forest.Layered) (id : NodeId) :
    forest.countDerivations id = .ok (min (forest.treeCount id) derivationCountMax) := by
  obtain ⟨counts, all, counted⟩ := layered.countAll_eq
  have count : counts.getD id 0 = capped (forest.treeCount id) := by
    rw [Array.getD_eq_getD_getElem?]
    by_cases inside : id < forest.size
    · rw [counted.count id inside, layered.length_trees]
      rfl
    · have missing : forest.node? id = none := by
        cases found : forest.node? id with
        | none => rfl
        | some node => exact absurd (node?_isSome_iff.mp ⟨node, found⟩) inside
      have beyond : counts[id]? = none :=
        Array.getElem?_eq_none (counted.size ▸ Nat.le_of_not_lt inside)
      rw [beyond, treeCount, missing]
      rfl
  rw [countDerivations, all]
  exact congrArg Except.ok count

theorem Layered.exists_derivation (layered : forest.Layered)
    (proper : ∀ symbol span alternatives, node = .choice symbol span alternatives →
      ∀ alternative ∈ alternatives, ∃ inner, forest.node? alternative = some inner ∧
        inner.Applies symbol span)
    (found : forest.node? id = some node) {symbol : Symbol} (known : node.symbol? = some symbol)
    {tree : Tree} (member : tree ∈ forest.trees id) :
    ∃ derivation : Derivation, derivation.tree = tree := by
  cases node with
  | leaf token span => cases known
  | application rule symbol span children priority action =>
    obtain ⟨trees, rfl, -⟩ := (layered.mem_trees_application found).mp member
    exact ⟨⟨rule, symbol, span, trees⟩, rfl⟩
  | choice symbol span alternatives =>
    obtain ⟨alternative, chosen, made⟩ := (layered.mem_trees_choice found).mp member
    obtain ⟨inner, there, rule, children, priority, action, rfl⟩ :=
      proper symbol span alternatives rfl alternative chosen
    obtain ⟨trees, rfl, -⟩ := (layered.mem_trees_application there).mp made
    exact ⟨⟨rule, symbol, span, trees⟩, rfl⟩

/-- Counting and enumerating agree on every well-formed forest whose root is no token: counting finds
the number of trees of every node, and enumerating the first trees of the root, as many as asked for. -/
theorem derivations_counted (wellFormed : forest.isWellFormed = true)
    (rooted : forest.root = some root) (found : forest.node? root = some node) {symbol : Symbol}
    (known : node.symbol? = some symbol) :
    (∀ id inner, forest.node? id = some inner →
      forest.treeCount id = inner.treeCount forest.treeCount) ∧
    (∀ id, forest.countDerivations id = .ok (min (forest.treeCount id) derivationCountMax)) ∧
    ∃ all : List Derivation, forest.trees root = all.map Derivation.tree ∧
      all.length = forest.treeCount root ∧
      ∀ limit, forest.derivations limit =
        .ok ⟨all.take (max limit 1), decide (max limit 1 < forest.treeCount root)⟩ := by
  have layered := layered_of_isWellFormed wellFormed
  have proper := fun symbol span alternatives same =>
    ((isWellFormed_iff.mp wellFormed root node found).2 symbol span alternatives same).2
  have inside := node?_isSome_iff.mp ⟨node, found⟩
  obtain ⟨all, trees⟩ := exists_map_tree fun tree member =>
    layered.exists_derivation proper found known member
  have lengths : all.length = forest.treeCount root := by
    rw [← layered.length_trees, trees, List.length_map]
  refine ⟨fun id inner => layered.treeCount_eq, layered.countDerivations_eq, all, trees, lengths, ?_⟩
  intro limit
  rw [layered.derivations_eq rooted inside, layered.length_trees, trees, ← List.map_take,
    filterMap_toDerivation?]

end Forest

/-- A forest written by hand: two of the alternatives of its root are the same node, and all of them
share another choice. -/
def sharedChoice : Forest where
  nodes := #[.leaf 0 ⟨0, 1⟩,
    .application 0 0 ⟨0, 1⟩ [0] 0 none,
    .application 1 0 ⟨0, 1⟩ [0] 5 none,
    .choice 0 ⟨0, 1⟩ [1, 2],
    .application 2 1 ⟨0, 1⟩ [3, 3] 1 none,
    .application 3 1 ⟨0, 1⟩ [3] 3 none,
    .choice 1 ⟨0, 1⟩ [4, 5, 5]]
  root := some 6
  tokenCount := 1

/-- Its root has eight trees, four of the first alternative and two of the other each time. -/
theorem sharedChoice_counted :
    sharedChoice.isWellFormed = true ∧ sharedChoice.root = some 6 ∧
      sharedChoice.node? 6 = some (.choice 1 ⟨0, 1⟩ [4, 5, 5]) ∧
      sharedChoice.countDerivations 6 = .ok 8 ∧
      ∃ all : List Derivation, sharedChoice.trees 6 = all.map Derivation.tree ∧ all.length = 8 ∧
        ∀ limit, sharedChoice.derivations limit =
          .ok ⟨all.take (max limit 1), decide (max limit 1 < 8)⟩ := by
  have wellFormed : sharedChoice.isWellFormed = true := by decide
  have rooted : sharedChoice.root = some 6 := rfl
  obtain ⟨counts, counted, all, trees, lengths, selects⟩ :=
    Forest.derivations_counted wellFormed rooted rfl rfl
  have found : sharedChoice.countDerivations 6 = .ok 8 := by decide
  have eight : sharedChoice.treeCount 6 = 8 := by
    have least := Except.ok.inj ((counted 6).symm.trans found)
    simp only [derivationCountMax, UInt64.size] at least
    omega
  rw [eight] at lengths selects
  exact ⟨wellFormed, rooted, rfl, found, all, trees, lengths, selects⟩

end Readings
