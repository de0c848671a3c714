import Readings.Derivation.Tree

/-! Parse trees as a relation between a grammar, a token list and a tree. `Derives` asks for the exact
span of every node; `Fits` leaves the spans open, so that a tree is one of a token list as soon as its
leaves are the tokens in their order. Main statement: a tree that fits has a twin with exact spans. -/

namespace Readings

namespace Grammar

theorem rule_of_lhs {grammar : Grammar} {id : RuleId} {symbol : Symbol}
    (known : grammar.lhs? id = some symbol) :
    ∃ rule, grammar.rules[id]? = some rule ∧ rule.lhs = symbol ∧ grammar.rhs id = rule.rhs := by
  obtain ⟨rule, found, same⟩ := Option.map_eq_some_iff.mp known
  exact ⟨rule, found, same, by simp only [Grammar.rhs, found]⟩

theorem mem_rulesFor {grammar : Grammar} {id : RuleId} {symbol : Symbol} :
    id ∈ grammar.rulesFor symbol ↔ grammar.lhs? id = some symbol := by
  simp only [rulesFor, List.mem_filter, List.mem_range, beq_iff_eq, and_iff_right_iff_imp]
  intro known
  obtain ⟨rule, found, -⟩ := rule_of_lhs known
  exact (Array.getElem?_eq_some_iff.mp found).1

end Grammar

section
variable (grammar : Grammar) (tokens : Array Token)

mutual
/-- A tree derives an element from one token position to another. -/
inductive Derives : Element → Nat → Nat → Tree → Prop where
  | token {terminal : Terminal} {position : Nat} {token : Token}
      (found : tokens[position]? = some token) (accepted : terminal.accepts token = true) :
      Derives (.terminal terminal) position (position + 1) (.leaf position)
  | application {rule : RuleId} {symbol : Symbol} {start stop : Nat} {children : List Tree}
      (known : grammar.lhs? rule = some symbol)
      (below : DerivesAll (grammar.rhs rule) start stop children) :
      Derives (.nonTerminal symbol) start stop (.node rule symbol ⟨start, stop⟩ children)

/-- Trees derive the elements of a list, each from where the one before ends. -/
inductive DerivesAll : List Element → Nat → Nat → List Tree → Prop where
  | nil {position : Nat} : DerivesAll [] position position []
  | cons {element : Element} {elements : List Element} {start middle stop : Nat} {tree : Tree}
      {trees : List Tree} (first : Derives element start middle tree)
      (rest : DerivesAll elements middle stop trees) :
      DerivesAll (element :: elements) start stop (tree :: trees)
end

mutual
/-- A tree applies the rules of a grammar to tokens, whatever the spans at its nodes say. -/
inductive Fits : Element → Tree → Prop where
  | token {terminal : Terminal} {position : Nat} {token : Token}
      (found : tokens[position]? = some token) (accepted : terminal.accepts token = true) :
      Fits (.terminal terminal) (.leaf position)
  | application {rule : RuleId} {symbol : Symbol} {span : TokenSpan} {children : List Tree}
      (known : grammar.lhs? rule = some symbol) (below : FitsAll (grammar.rhs rule) children) :
      Fits (.nonTerminal symbol) (.node rule symbol span children)

inductive FitsAll : List Element → List Tree → Prop where
  | nil : FitsAll [] []
  | cons {element : Element} {elements : List Element} {tree : Tree} {trees : List Tree}
      (first : Fits element tree) (rest : FitsAll elements trees) :
      FitsAll (element :: elements) (tree :: trees)
end

/-- A tree of the start symbol whose leaves are all the tokens in their order. -/
structure IsTreeOf (tree : Tree) : Prop where
  fits : Fits grammar tokens (.nonTerminal grammar.start) tree
  leaves : tree.yields = List.range tokens.size

/-- A derivation of the start symbol over all tokens, with the exact span at every node. -/
def IsReading (derivation : Derivation) : Prop :=
  Derives grammar tokens (.nonTerminal grammar.start) 0 tokens.size derivation.tree

end

namespace Tree

theorem nodesOf_eq_flatMap (trees : List Tree) : nodesOf trees = trees.flatMap nodes := by
  induction trees with
  | nil => rfl
  | cons tree trees ih => rw [nodesOf, ih, List.flatMap_cons]

theorem yieldsOf_eq_flatMap (trees : List Tree) : yieldsOf trees = trees.flatMap yields := by
  induction trees with
  | nil => rfl
  | cons tree trees ih => rw [yieldsOf, ih, List.flatMap_cons]

@[simp] theorem nodesOf_append (trees others : List Tree) :
    nodesOf (trees ++ others) = nodesOf trees ++ nodesOf others := by
  simp only [nodesOf_eq_flatMap, List.flatMap_append]

@[simp] theorem yieldsOf_append (trees others : List Tree) :
    yieldsOf (trees ++ others) = yieldsOf trees ++ yieldsOf others := by
  simp only [yieldsOf_eq_flatMap, List.flatMap_append]

theorem mem_nodesOf {node : Derivation} {trees : List Tree} :
    node ∈ nodesOf trees ↔ ∃ tree ∈ trees, node ∈ tree.nodes := by
  rw [nodesOf_eq_flatMap, List.mem_flatMap]

mutual
theorem nodes_subset {node : Derivation} : ∀ {tree : Tree}, node ∈ tree.nodes →
    node.tree.nodes ⊆ tree.nodes
  | .leaf _, member => absurd member List.not_mem_nil
  | .node _ _ _ _, member => by
    rcases List.mem_cons.mp member with rfl | deeper
    · exact List.Subset.refl _
    · exact List.subset_cons_of_subset _ (nodes_subset_nodesOf deeper)

theorem nodes_subset_nodesOf {node : Derivation} : ∀ {trees : List Tree}, node ∈ nodesOf trees →
    node.tree.nodes ⊆ nodesOf trees
  | [], member => absurd member List.not_mem_nil
  | _ :: _, member => by
    rcases List.mem_append.mp member with here | later
    · exact List.subset_append_of_subset_left _ (nodes_subset here)
    · exact List.subset_append_of_subset_right _ (nodes_subset_nodesOf later)
end

end Tree

variable {grammar : Grammar} {tokens : Array Token}

mutual
theorem Derives.le {element start stop tree} :
    Derives grammar tokens element start stop tree → start ≤ stop
  | .token _ _ => Nat.le_succ _
  | .application _ below => below.le

theorem DerivesAll.le {elements start stop trees} :
    DerivesAll grammar tokens elements start stop trees → start ≤ stop
  | .nil => Nat.le_refl _
  | .cons first rest => Nat.le_trans first.le rest.le
end

mutual
theorem Derives.inside {element start stop tree} (bound : start ≤ tokens.size) :
    Derives grammar tokens element start stop tree → stop ≤ tokens.size
  | .token found _ => (Array.getElem?_eq_some_iff.mp found).1
  | .application _ below => below.inside bound

theorem DerivesAll.inside {elements start stop trees} (bound : start ≤ tokens.size) :
    DerivesAll grammar tokens elements start stop trees → stop ≤ tokens.size
  | .nil => bound
  | .cons first rest => rest.inside (first.inside bound)
end

theorem DerivesAll.append {front back start middle stop trees others}
    (first : DerivesAll grammar tokens front start middle trees)
    (rest : DerivesAll grammar tokens back middle stop others) :
    DerivesAll grammar tokens (front ++ back) start stop (trees ++ others) := by
  induction front generalizing start trees with
  | nil =>
    cases first
    exact rest
  | cons element front ih =>
    cases first with
    | cons head tail => exact .cons head (ih tail)

theorem DerivesAll.split {front back start stop trees}
    (derived : DerivesAll grammar tokens (front ++ back) start stop trees) :
    ∃ middle first rest, trees = first ++ rest ∧
      DerivesAll grammar tokens front start middle first ∧
      DerivesAll grammar tokens back middle stop rest := by
  induction front generalizing start trees with
  | nil => exact ⟨start, [], trees, rfl, .nil, derived⟩
  | cons element front ih =>
    cases derived with
    | @cons _ _ _ middle _ tree trees head tail =>
      obtain ⟨position, first, rest, rfl, before, behind⟩ := ih tail
      exact ⟨position, tree :: first, rest, rfl, .cons head before, behind⟩

theorem derivesAll_concat_iff {elements : List Element} {element : Element} {start stop : Nat}
    {trees : List Tree} :
    DerivesAll grammar tokens (elements ++ [element]) start stop trees ↔
      ∃ middle front last, trees = front ++ [last] ∧
        DerivesAll grammar tokens elements start middle front ∧
        Derives grammar tokens element middle stop last := by
  constructor
  · intro derived
    obtain ⟨middle, front, rest, rfl, before, behind⟩ := derived.split
    cases behind with
    | cons last none =>
      cases none
      exact ⟨middle, front, _, rfl, before, last⟩
  · intro parts
    obtain ⟨middle, front, last, rfl, before, behind⟩ := parts
    exact before.append (.cons behind .nil)

theorem DerivesAll.around {elements start stop trees} {tree : Tree}
    (derived : DerivesAll grammar tokens elements start stop trees) (member : tree ∈ trees) :
    ∃ front element back first last before behind, elements = front ++ element :: back ∧
      DerivesAll grammar tokens front start first before ∧
      Derives grammar tokens element first last tree ∧
      DerivesAll grammar tokens back last stop behind := by
  induction elements generalizing start trees with
  | nil =>
    cases derived
    exact absurd member List.not_mem_nil
  | cons element elements ih =>
    cases derived with
    | @cons _ _ _ middle _ _ _ head tail =>
      rcases List.mem_cons.mp member with rfl | later
      · exact ⟨[], element, elements, start, middle, [], _, rfl, .nil, head, tail⟩
      · obtain ⟨front, other, back, first, last, before, behind, rfl, early, here, late⟩ := ih tail later
        exact ⟨element :: front, other, back, first, last, _ :: before, behind, rfl, .cons head early,
          here, late⟩

mutual
theorem Derives.fits {element start stop tree} :
    Derives grammar tokens element start stop tree → Fits grammar tokens element tree
  | .token found accepted => .token found accepted
  | .application known below => .application known below.fits

theorem DerivesAll.fits {elements start stop trees} :
    DerivesAll grammar tokens elements start stop trees → FitsAll grammar tokens elements trees
  | .nil => .nil
  | .cons first rest => .cons first.fits rest.fits
end

mutual
theorem Derives.yields {element start stop tree} :
    Derives grammar tokens element start stop tree →
      tree.yields = List.range' start (stop - start)
  | .token _ _ => by simp [Tree.yields]
  | .application _ below => by simpa only [Tree.yields] using below.yields

theorem DerivesAll.yields {elements start stop trees} :
    DerivesAll grammar tokens elements start stop trees →
      Tree.yieldsOf trees = List.range' start (stop - start)
  | .nil => by simp [Tree.yieldsOf]
  | @DerivesAll.cons _ _ _ _ start middle stop _ _ first rest => by
    have before := first.le
    have behind := rest.le
    have lengths : stop - start = (middle - start) + (stop - middle) := by omega
    have place : start + 1 * (middle - start) = middle := by omega
    rw [Tree.yieldsOf, first.yields, rest.yields, lengths, ← List.range'_append, place]
end

private theorem leaves_split {first rest : List Nat} {start count : Nat}
    (same : first ++ rest = List.range' start count) :
    ∃ before behind, before + behind = count ∧ first = List.range' start before ∧
      rest = List.range' (start + before) behind := by
  have lengths : first.length + rest.length = count := by simpa using congrArg List.length same
  have parts : List.range' start count =
      List.range' start first.length ++ List.range' (start + first.length) rest.length := by
    rw [← lengths, List.range'_append_1]
  obtain ⟨here, there⟩ := List.append_inj (same.trans parts) (by simp)
  exact ⟨first.length, rest.length, lengths, here, there⟩

mutual
theorem Fits.exact {element tree start count} (leaves : tree.yields = List.range' start count) :
    Fits grammar tokens element tree →
      ∃ twin, Derives grammar tokens element start (start + count) twin
  | @Fits.token _ _ terminal position token found accepted => by
    simp only [Tree.yields] at leaves
    match count, leaves with
    | 1, leaves =>
      obtain rfl : position = start := by simpa using leaves
      exact ⟨.leaf position, .token found accepted⟩
    | 0, leaves => simp at leaves
    | count + 2, leaves => simp [List.range'_succ] at leaves
  | @Fits.application _ _ rule symbol span children known below => by
    obtain ⟨twins, derived⟩ := below.exact (by simpa only [Tree.yields] using leaves)
    exact ⟨_, .application known derived⟩

theorem FitsAll.exact {elements trees start count}
    (leaves : Tree.yieldsOf trees = List.range' start count) :
    FitsAll grammar tokens elements trees →
      ∃ twins, DerivesAll grammar tokens elements start (start + count) twins
  | .nil => by
    have none : count = 0 := by simpa [Tree.yieldsOf] using (congrArg List.length leaves).symm
    subst none
    exact ⟨[], .nil⟩
  | .cons first rest => by
    obtain ⟨before, behind, rfl, here, there⟩ := leaves_split leaves
    obtain ⟨tree, derived⟩ := first.exact here
    obtain ⟨trees, all⟩ := rest.exact there
    exact ⟨tree :: trees, .cons derived (by simpa only [Nat.add_assoc] using all)⟩
end

/-- There is a tree of the tokens as soon as one has the right leaves. -/
theorem exists_reading_iff :
    (∃ derivation, IsReading grammar tokens derivation) ↔ ∃ tree, IsTreeOf grammar tokens tree := by
  constructor
  · intro reading
    obtain ⟨derivation, derived⟩ := reading
    refine ⟨derivation.tree, derived.fits, ?_⟩
    simpa [List.range_eq_range'] using derived.yields
  · intro known
    obtain ⟨tree, fits, leaves⟩ := known
    obtain ⟨twin, derived⟩ := fits.exact (by rw [leaves, List.range_eq_range'])
    rw [Nat.zero_add] at derived
    cases derived with
    | @application rule _ _ _ children known below =>
      exact ⟨⟨rule, grammar.start, ⟨0, tokens.size⟩, children⟩, .application known below⟩

end Readings
