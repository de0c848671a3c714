import Mathlib.Data.List.Intervals
import Mathlib.Data.List.Sort
import Readings.Proofs.Recognition

/-! The check of derivations. It looks at each node on its own: a child for every element of the rule, and
spans of the children that follow one another. Over the whole tree this makes the tokens below a node
those of its span, with nodes over no tokens wherever they stand, and the leaves of the derivation the
tokens of the input in their order. -/

namespace Readings

namespace Tree

/-- The span of a tree, also of a token that is the last of all counts. -/
def extent : Tree → TokenSpan
  | .leaf token => ⟨token, token + 1⟩
  | .node _ _ span _ => span

/-- Trees that follow one another from one position to another. -/
inductive Tiles : Nat → Nat → List Tree → Prop where
  | nil {position : Nat} : Tiles position position []
  | cons {stop : Nat} {tree : Tree} {trees : List Tree} (forward : tree.extent.start ≤ tree.extent.stop)
      (rest : Tiles tree.extent.stop stop trees) : Tiles tree.extent.start stop (tree :: trees)

end Tree

/-- A node with a child for every element of its rule, whose children follow one another over its span. -/
structure Derivation.IsTiled (grammar : Grammar) (node : Derivation) : Prop where
  complete : node.children.length = (grammar.rhs node.rule).length
  tiled : Tree.Tiles node.span.start node.span.stop node.children

namespace Tree

variable {grammar : Grammar} {start stop : Nat} {tree : Tree} {trees : List Tree}

theorem tiles_nil_iff : Tiles start stop [] ↔ start = stop :=
  ⟨fun | .nil => rfl, fun same => same ▸ .nil⟩

theorem tiles_cons_iff :
    Tiles start stop (tree :: trees) ↔
      (tree.extent.start = start ∧ tree.extent.start ≤ tree.extent.stop) ∧
        Tiles tree.extent.stop stop trees := by
  constructor
  · rintro ⟨⟩
    case cons forward rest => exact ⟨⟨rfl, forward⟩, rest⟩
  · rintro ⟨⟨rfl, forward⟩, rest⟩
    exact .cons forward rest

theorem Tiles.le (tiles : Tiles start stop trees) : start ≤ stop := by
  induction tiles with
  | nil => exact Nat.le_refl _
  | cons forward _ ih => exact Nat.le_trans forward ih

theorem Tiles.inside (tiles : Tiles start stop trees) (member : tree ∈ trees) :
    start ≤ tree.extent.start ∧ tree.extent.stop ≤ stop := by
  induction tiles with
  | nil => exact absurd member List.not_mem_nil
  | cons forward rest ih =>
    rcases List.mem_cons.mp member with rfl | later
    · exact ⟨Nat.le_refl _, rest.le⟩
    · exact ⟨Nat.le_trans forward (ih later).1, (ih later).2⟩

theorem span_eq (tokens : ∀ token ∈ tree.yields, token + 1 < countBound) : tree.span = .ok tree.extent := by
  cases tree with
  | node => rfl
  | leaf token =>
    rw [span, TokenSpan.single, addCounts, if_pos (tokens token (List.mem_singleton_self token))]
    rfl

mutual
/-- The check of a tree answers, and it accepts exactly if all the nodes are tiled. -/
theorem isSound_answers : ∀ {tree : Tree}, (∀ node ∈ tree.nodes, node.rule < grammar.rules.size) →
    (∀ token ∈ tree.yields, token + 1 < countBound) →
    ∃ sound, tree.isSound grammar = .ok sound ∧
      (sound = true ↔ ∀ node ∈ tree.nodes, node.IsTiled grammar)
  | .leaf _, _, _ => ⟨true, by rw [isSound], iff_of_true rfl nofun⟩
  | .node rule lhs span children, rules, tokens => by
    rw [nodes, List.forall_mem_cons] at rules
    have inside : rule < grammar.rules.size := rules.1
    have found : grammar.rules[rule]? = some grammar.rules[rule] := Array.getElem?_eq_getElem inside
    have known : grammar.rule rule = .ok grammar.rules[rule] := by rw [Grammar.rule, found]
    have side : grammar.rhs rule = grammar.rules[rule].rhs := by rw [Grammar.rhs, found]
    simp only [isSound, known, bind, Except.bind, nodes, List.forall_mem_cons]
    by_cases complete : children.length = grammar.rules[rule].rhs.length
    · obtain ⟨tiled, answered, accepts⟩ := isTiled_answers span.start span.stop rules.2 tokens
      rw [if_pos complete, answered]
      refine ⟨tiled, rfl, accepts.trans (and_congr_left' ?_)⟩
      exact ⟨fun tiles => ⟨side ▸ complete, tiles⟩, Derivation.IsTiled.tiled⟩
    · rw [if_neg complete]
      exact ⟨false, rfl, iff_of_false nofun fun all => complete (side ▸ all.1.complete)⟩

theorem isTiled_answers (start stop : Nat) : ∀ {trees : List Tree},
    (∀ node ∈ nodesOf trees, node.rule < grammar.rules.size) →
    (∀ token ∈ yieldsOf trees, token + 1 < countBound) →
    ∃ tiled, isTiled grammar stop start trees = .ok tiled ∧
      (tiled = true ↔ Tiles start stop trees ∧ ∀ node ∈ nodesOf trees, node.IsTiled grammar)
  | [], _, _ => ⟨start == stop, by rw [isTiled], by simp [tiles_nil_iff, nodesOf]⟩
  | tree :: trees, rules, tokens => by
    rw [nodesOf, List.forall_mem_append] at rules
    rw [yieldsOf, List.forall_mem_append] at tokens
    simp only [isTiled, span_eq tokens.1, bind, Except.bind, tiles_cons_iff, nodesOf,
      List.forall_mem_append]
    -- The check stops at the first tree that does not follow or is not sound, so what the others answer
    -- counts only if this one is both.
    by_cases follows : tree.extent.start = start ∧ tree.extent.start ≤ tree.extent.stop
    · obtain ⟨sound, answered, accepts⟩ := isSound_answers rules.1 tokens.1
      obtain ⟨tiled, rest, continues⟩ := isTiled_answers tree.extent.stop stop rules.2 tokens.2
      rw [if_pos follows, answered]
      cases sound with
      | true =>
        refine ⟨tiled, rest, continues.trans ⟨?_, ?_⟩⟩
        · exact fun ⟨tiles, later⟩ => ⟨⟨follows, tiles⟩, accepts.mp rfl, later⟩
        · exact fun ⟨⟨_, tiles⟩, _, later⟩ => ⟨tiles, later⟩
      | false =>
        exact ⟨false, rfl, iff_of_false nofun fun all => nomatch accepts.mpr all.2.1⟩
    · rw [if_neg follows]
      exact ⟨false, rfl, iff_of_false nofun fun all => follows all.1.1⟩
end

mutual
theorem yields_eq_of_tiled : ∀ {tree : Tree}, (∀ node ∈ tree.nodes, node.IsTiled grammar) →
    tree.yields = List.Ico tree.extent.start tree.extent.stop
  | .leaf _, _ => List.Ico.succ_singleton.symm
  | .node _ _ _ _, tiled => by
    rw [nodes, List.forall_mem_cons] at tiled
    exact yieldsOf_eq_of_tiles tiled.1.tiled tiled.2

theorem yieldsOf_eq_of_tiles : ∀ {start stop : Nat} {trees : List Tree}, Tiles start stop trees →
    (∀ node ∈ nodesOf trees, node.IsTiled grammar) → yieldsOf trees = List.Ico start stop
  | _, _, _, .nil, _ => List.Ico.self_empty.symm
  | _, _, _, .cons forward rest, tiled => by
    rw [nodesOf, List.forall_mem_append] at tiled
    rw [yieldsOf, yields_eq_of_tiled tiled.1, yieldsOf_eq_of_tiles rest tiled.2,
      List.Ico.append_consecutive forward rest.le]
end

mutual
/-- Every token of a tree is a child of one of its nodes, unless it is the tree itself. -/
theorem tokens_perm : ∀ tree : Tree,
    (tree.token?.toList ++ tree.nodes.flatMap Derivation.ownTokens).Perm tree.yields
  | .leaf _ => .refl _
  | .node _ _ _ children => tokensOf_perm children

theorem tokensOf_perm : ∀ trees : List Tree,
    (trees.filterMap token? ++ (nodesOf trees).flatMap Derivation.ownTokens).Perm (yieldsOf trees)
  | [] => .refl _
  | tree :: trees => by
    have parts := (tokens_perm tree).append (tokensOf_perm trees)
    rw [yieldsOf, nodesOf, List.flatMap_append, List.filterMap_eq_flatMap_toList, List.flatMap_cons,
      ← List.filterMap_eq_flatMap_toList]
    refine .trans ?_ parts
    simp only [List.append_assoc]
    -- A node gathers its own tokens before any that stand deeper in the children in front of them.
    exact (List.perm_append_comm_assoc _ _ _).append_left _
end

theorem nodesOf_eq_inner (trees : List Tree) :
    nodesOf trees = (trees.filterMap toDerivation?).flatMap Derivation.nodes := by
  induction trees with
  | nil => rfl
  | cons tree trees ih =>
    cases tree with
    | leaf token => exact ih
    | node rule lhs span children => exact congrArg (_ ++ ·) ih

end Tree

namespace Derivation

variable {grammar : Grammar} {derivation : Derivation} {tokenCount : Nat}

/-- The nodes met by a walk in so many steps. Each takes the first node off a stack and puts those among its
children in its place. -/
def walk : Nat → List Derivation → List Derivation
  | steps + 1, node :: stack => node :: walk steps (node.children.filterMap Tree.toDerivation? ++ stack)
  | _, _ => []

theorem walk_eq {steps : Nat} {stack : List Derivation} (enough : (stack.flatMap nodes).length ≤ steps) :
    walk steps stack = stack.flatMap nodes := by
  induction steps generalizing stack with
  | zero => exact (List.length_eq_zero_iff.mp (Nat.le_zero.mp enough)).symm
  | succ steps ih =>
    cases stack with
    | nil => rfl
    | cons node stack =>
      have below : (node :: stack).flatMap nodes =
          node :: (node.children.filterMap Tree.toDerivation? ++ stack).flatMap nodes := by
        rw [List.flatMap_append, ← Tree.nodesOf_eq_inner]
        rfl
      rw [below, List.length_cons] at enough
      rw [below, walk, ih (Nat.le_of_succ_le_succ enough)]

theorem leaves_perm : derivation.leaves.Perm derivation.tree.yields :=
  (List.mergeSort_perm _ _).trans (Tree.tokens_perm derivation.tree)

theorem leaves_eq_range (ordered : derivation.tree.yields = List.range tokenCount) :
    derivation.leaves = List.range tokenCount :=
  (ordered ▸ derivation.leaves_perm).eq_of_pairwise (fun _ _ _ _ => Nat.le_antisymm)
    (List.pairwise_mergeSort' (· ≤ ·) _) List.pairwise_le_range

/-- A derivation of so many tokens: they are its leaves in their order, and the span of each node is that of
the tokens below it, inside the span of the node above. -/
structure Covers (tokenCount : Nat) (derivation : Derivation) : Prop where
  yields : derivation.tree.yields = List.range tokenCount
  leaves : derivation.leaves = List.range tokenCount
  ordered : ∀ node ∈ derivation.nodes, node.span.start ≤ node.span.stop
  nested : ∀ node ∈ derivation.nodes, ∀ child : Derivation, child.tree ∈ node.children →
    node.span.contains child.span = true
  spanned : ∀ node ∈ derivation.nodes, node.tree.yields = List.Ico node.span.start node.span.stop

theorem covers_of_tiled (whole : derivation.span = ⟨0, tokenCount⟩)
    (tiled : ∀ node ∈ derivation.nodes, node.IsTiled grammar) : derivation.Covers tokenCount := by
  have spanned (node : Derivation) (member : node ∈ derivation.nodes) :
      node.tree.yields = List.Ico node.span.start node.span.stop :=
    Tree.yields_eq_of_tiled fun other below => tiled other (Tree.nodes_subset member below)
  have yields : derivation.tree.yields = List.range tokenCount := by
    rw [spanned derivation List.mem_cons_self, whole, List.Ico.zero_bot]
  refine ⟨yields, leaves_eq_range yields, fun node member => (tiled node member).tiled.le, ?_, spanned⟩
  intro node member child below
  have inside := (tiled node member).tiled.inside below
  simp only [TokenSpan.contains, Bool.and_eq_true, decide_eq_true_eq]
  exact inside

/-- The check of a derivation answers if its rules are rules of the grammar and the ends of its tokens can be
counted. It accepts exactly if the root is over so many tokens and all nodes are tiled, and then the derivation
covers these tokens; the nodes that are searched for leaves are those that a walk with a stack meets. -/
theorem isSound_exact (tokenCount : Nat) (rules : ∀ rule ∈ derivation.rules, rule < grammar.rules.size)
    (tokens : ∀ token ∈ derivation.tree.yields, token + 1 < countBound) :
    ∃ sound, derivation.isSound grammar tokenCount = .ok sound ∧
      (sound = true ↔ derivation.span = ⟨0, tokenCount⟩ ∧
        ∀ node ∈ derivation.nodes, node.IsTiled grammar) ∧
      (sound = true → derivation.Covers tokenCount) ∧
      ∀ steps, derivation.nodes.length ≤ steps → walk steps [derivation] = derivation.nodes := by
  have known (node : Derivation) (member : node ∈ derivation.tree.nodes) : node.rule < grammar.rules.size :=
    rules node.rule (List.mem_map_of_mem member)
  have walked (steps : Nat) (enough : derivation.nodes.length ≤ steps) :
      walk steps [derivation] = derivation.nodes := by
    rw [walk_eq (by simpa using enough), List.flatMap_singleton]
  by_cases whole : derivation.span = ⟨0, tokenCount⟩
  · obtain ⟨sound, answered, accepts⟩ := Tree.isSound_answers known tokens
    refine ⟨sound, (if_pos whole).trans answered, ?_, fun accepted => ?_, walked⟩
    · exact accepts.trans (and_iff_right whole).symm
    · exact covers_of_tiled whole (accepts.mp accepted)
  · exact ⟨false, if_neg whole, iff_of_false nofun fun all => whole all.1, nofun, walked⟩

theorem rightSum_covers :
    (∀ rule ∈ rightSum.rules, rule < sums.rules.size) ∧
      (∀ token ∈ rightSum.tree.yields, token + 1 < countBound) ∧
      rightSum.isSound sums 5 = .ok true ∧ rightSum.Covers 5 ∧ rightSum.leaves = [0, 1, 2, 3, 4] := by
  have rules : ∀ rule ∈ rightSum.rules, rule < sums.rules.size := by decide
  have tokens : ∀ token ∈ rightSum.tree.yields, token + 1 < countBound := by decide
  have accepted : rightSum.isSound sums 5 = .ok true := by decide
  obtain ⟨sound, answered, -, covers, -⟩ := isSound_exact 5 rules tokens
  have covered := covers (Except.ok.inj (answered.symm.trans accepted))
  exact ⟨rules, tokens, accepted, covered, covered.leaves⟩

end Derivation

end Readings
