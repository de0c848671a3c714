import Readings.Proofs.ArenaLayout
import Readings.Proofs.Filing

/-! Forests in which a choice is a real one: between at least two rules applied for its symbol over its
span, no two of them alike. A tree of a node then tells the place that the node stands for, and a tree
of an alternative the rule and the places below it. -/

namespace Readings

def ForestNode.part : ForestNode → Part
  | .leaf token _ => .leaf token
  | .choice symbol span _ => .slot ⟨symbol, span⟩
  | .application _ symbol span _ _ _ => .slot ⟨symbol, span⟩

def ForestNode.Applies (symbol : Symbol) (span : TokenSpan) (node : ForestNode) : Prop :=
  ∃ rule children priority action, node = .application rule symbol span children priority action

theorem ForestNode.applies_iff {symbol : Symbol} {span : TokenSpan} {node : ForestNode} :
    node.applies symbol span = true ↔ node.Applies symbol span := by
  cases node with
  | leaf => simp [applies, Applies]
  | choice => simp [applies, Applies]
  | application =>
    simp only [applies, Bool.and_eq_true, beq_iff_eq]
    constructor
    · rintro ⟨rfl, rfl⟩
      exact ⟨_, _, _, _, rfl⟩
    · rintro ⟨_, _, _, _, same⟩
      cases same
      exact ⟨rfl, rfl⟩

namespace Forest

def part? (forest : Forest) (id : NodeId) : Option Part := (forest.node? id).map ForestNode.part

/-- What a node applies: its rule to the places that its children stand for. -/
def packing? (forest : Forest) (id : NodeId) : Option Packing :=
  match forest.node? id with
  | some (.application rule _ _ children _ _) => some ⟨rule, children.filterMap forest.part?⟩
  | _ => none

/-- Choices of a forest are between different applications for the same place. -/
structure Arranged (forest : Forest) : Prop where
  layered : forest.Layered
  several : ∀ id symbol span alternatives,
    forest.node? id = some (.choice symbol span alternatives) → 2 ≤ alternatives.length
  applied : ∀ id symbol span alternatives,
    forest.node? id = some (.choice symbol span alternatives) → ∀ alternative ∈ alternatives,
      ∃ node, forest.node? alternative = some node ∧ node.Applies symbol span
  distinct : ∀ id symbol span alternatives,
    forest.node? id = some (.choice symbol span alternatives) → (alternatives.map forest.packing?).Nodup

theorem arranged_empty (tokenCount : Nat) : (Forest.empty tokenCount).Arranged := by
  refine ⟨⟨?_, ?_⟩, ?_, ?_, ?_⟩ <;> simp [node?_empty]

variable {forest : Forest}

private theorem getD_map_iff {α : Type} {found : Option α} {test : α → Bool} :
    (found.map test).getD false = true ↔ ∃ value, found = some value ∧ test value = true := by
  cases found <;> simp

private theorem hasNestedSuccessors_iff {id : NodeId} {node : ForestNode} :
    forest.hasNestedSuccessors id node = true ↔ ∀ child ∈ node.successors, child < id ∧
      ∃ inner, forest.node? child = some inner ∧ node.span.contains inner.span = true := by
  simp only [hasNestedSuccessors, List.all_eq_true, Bool.and_eq_true, decide_eq_true_eq, getD_map_iff]

private theorem hasProperAlternatives_iff {node : ForestNode} :
    forest.hasProperAlternatives node = true ↔
      ∀ symbol span alternatives, node = .choice symbol span alternatives →
        2 ≤ alternatives.length ∧ ∀ alternative ∈ alternatives,
          ∃ inner, forest.node? alternative = some inner ∧ inner.Applies symbol span := by
  cases node with
  | leaf => simp [hasProperAlternatives]
  | application => simp [hasProperAlternatives]
  | choice symbol span alternatives =>
    simp only [hasProperAlternatives, Bool.and_eq_true, decide_eq_true_eq, List.all_eq_true, getD_map_iff,
      ForestNode.applies_iff, ForestNode.choice.injEq]
    constructor
    · rintro proper _ _ _ ⟨rfl, rfl, rfl⟩
      exact proper
    · exact fun proper => proper _ _ _ ⟨rfl, rfl, rfl⟩

theorem isWellFormed_iff :
    forest.isWellFormed = true ↔ ∀ id node, forest.node? id = some node →
      (∀ child ∈ node.successors, child < id ∧
        ∃ inner, forest.node? child = some inner ∧ node.span.contains inner.span = true) ∧
      ∀ symbol span alternatives, node = .choice symbol span alternatives →
        2 ≤ alternatives.length ∧ ∀ alternative ∈ alternatives,
          ∃ inner, forest.node? alternative = some inner ∧ inner.Applies symbol span := by
  simp only [isWellFormed, List.all_eq_true, Prod.forall, mem_entries, Bool.and_eq_true,
    hasNestedSuccessors_iff, hasProperAlternatives_iff]

end Forest

section Trees
variable {forest : Forest}

theorem Forest.Layered.mem_trees_application (layered : forest.Layered) {id : NodeId} {rule : RuleId}
    {symbol : Symbol} {span : TokenSpan} {children : List NodeId} {priority : Int} {action : Option String}
    (found : forest.node? id = some (.application rule symbol span children priority action)) {tree : Tree} :
    tree ∈ forest.trees id ↔ ∃ trees, tree = .node rule symbol span trees ∧
      List.Forall₂ (fun tree child => tree ∈ forest.trees child) trees children := by
  simp only [layered.trees_eq found, ForestNode.fullTrees, List.mem_map, mem_sequences]
  constructor
  · intro listed
    obtain ⟨trees, made, same⟩ := listed
    exact ⟨trees, same.symm, made⟩
  · intro known
    obtain ⟨trees, same, made⟩ := known
    exact ⟨trees, made, same.symm⟩

theorem Forest.Layered.mem_trees_choice (layered : forest.Layered) {id : NodeId} {symbol : Symbol}
    {span : TokenSpan} {alternatives : List NodeId}
    (found : forest.node? id = some (.choice symbol span alternatives)) {tree : Tree} :
    tree ∈ forest.trees id ↔ ∃ alternative ∈ alternatives, tree ∈ forest.trees alternative := by
  simp only [layered.trees_eq found, ForestNode.fullTrees, List.mem_flatMap]

variable (arranged : forest.Arranged)
include arranged

theorem Forest.Arranged.part_eq {id : NodeId} {tree : Tree} (member : tree ∈ forest.trees id) :
    forest.part? id = some tree.part := by
  have inside : ∃ node, forest.node? id = some node := by
    cases found : forest.node? id with
    | none => rw [Forest.trees, found] at member; cases member
    | some node => exact ⟨node, rfl⟩
  obtain ⟨node, found⟩ := inside
  rw [Forest.part?, found]
  cases node with
  | leaf token span =>
    rw [arranged.layered.trees_eq found] at member
    obtain rfl := List.mem_singleton.mp member
    rfl
  | application rule symbol span children priority action =>
    obtain ⟨trees, rfl, -⟩ := (arranged.layered.mem_trees_application found).mp member
    rfl
  | choice symbol span alternatives =>
    obtain ⟨alternative, chosen, made⟩ := (arranged.layered.mem_trees_choice found).mp member
    obtain ⟨_, there, rule, children, priority, action, rfl⟩ := arranged.applied id _ _ _ found _ chosen
    obtain ⟨trees, rfl, -⟩ := (arranged.layered.mem_trees_application there).mp made
    rfl

private theorem Forest.Arranged.parts_eq {children : List NodeId} {trees : List Tree}
    (made : List.Forall₂ (fun tree child => tree ∈ forest.trees child) trees children) :
    children.filterMap forest.part? = trees.map Tree.part := by
  induction made with
  | nil => rfl
  | cons first _ ih =>
    rw [List.filterMap_cons_some (arranged.part_eq first), ih, List.map_cons]

theorem Forest.Arranged.packing_eq {id : NodeId} {symbol : Symbol} {span : TokenSpan} {node : ForestNode}
    (found : forest.node? id = some node) (applies : node.Applies symbol span) {derivation : Derivation}
    (member : derivation.tree ∈ forest.trees id) :
    derivation.slot = ⟨symbol, span⟩ ∧ forest.packing? id = some derivation.packing := by
  obtain ⟨rule, children, priority, action, rfl⟩ := applies
  obtain ⟨trees, same, made⟩ := (arranged.layered.mem_trees_application found).mp member
  obtain ⟨_, _, _, _⟩ := derivation
  cases same
  refine ⟨rfl, ?_⟩
  simp only [Forest.packing?, found, arranged.parts_eq made, Derivation.packing]

end Trees

namespace Shape

variable {κ : Type}

def part : Shape κ → Part
  | .leaf token _ => .leaf token
  | .choice symbol span _ => .slot ⟨symbol, span⟩
  | .application _ symbol span _ _ _ => .slot ⟨symbol, span⟩

def span : Shape κ → TokenSpan
  | .leaf _ span => span
  | .choice _ span _ => span
  | .application _ _ span _ _ _ => span

def priority? : Shape κ → Option Int
  | .application _ _ _ _ priority _ => some priority
  | _ => none

def Applies (symbol : Symbol) (span : TokenSpan) (shape : Shape κ) : Prop :=
  ∃ rule children priority action, shape = .application rule symbol span children priority action

def packing? (shape : κ → Shape κ) : Shape κ → Option Packing
  | .application rule _ _ children _ _ => some ⟨rule, children.map fun child => (shape child).part⟩
  | _ => none

/-- The keys refer to each other, and choices among them are between applications for the same place. -/
structure Settled (shape : κ → Shape κ) (order : List κ) : Prop where
  closed : ∀ key ∈ order, (shape key).targets ⊆ order
  chosen : ∀ key ∈ order, ∀ symbol span, shape key ≠ .choice symbol span []
  applied : ∀ key ∈ order, ∀ symbol span alternatives, shape key = .choice symbol span alternatives →
    ∀ alternative ∈ alternatives, (shape alternative).Applies symbol span

structure Arranged (shape : κ → Shape κ) (order : List κ) : Prop extends Settled shape order where
  distinct : ∀ key ∈ order, ∀ symbol span alternatives, shape key = .choice symbol span alternatives →
    (alternatives.map fun alternative => (shape alternative).packing? shape).Nodup

theorem part_node (number : κ → NodeId) (shape : Shape κ) : (shape.node number).part = shape.part := by
  cases shape <;> rfl

theorem priority?_node (number : κ → NodeId) (shape : Shape κ) :
    (shape.node number).priority? = shape.priority? := by
  cases shape <;> rfl

theorem span_node (number : κ → NodeId) (shape : Shape κ) : (shape.node number).span = shape.span := by
  cases shape <;> rfl

theorem Applies.only? {symbol : Symbol} {span : TokenSpan} {shape : Shape κ}
    (applies : shape.Applies symbol span) : shape.only? = none := by
  obtain ⟨rule, children, priority, action, rfl⟩ := applies
  rfl

theorem only?_eq_some_iff {shape : Shape κ} {only : κ} :
    shape.only? = some only ↔ ∃ symbol span, shape = .choice symbol span [only] := by
  constructor
  · intro alone
    match shape, alone with
    | .choice symbol span [_], rfl => exact ⟨symbol, span, rfl⟩
  · intro single
    obtain ⟨symbol, span, rfl⟩ := single
    rfl

end Shape

namespace Arena

variable {κ : Type} [BEq κ] [Hashable κ] {shape : κ → Shape κ} {arena : Arena κ} {order : List κ}
  {key : κ}

/-- A choice in the forest was made for a key whose shape is a choice. -/
theorem Laid.exists_choice (laid : arena.Laid shape order) (root : Option NodeId) (tokenCount : Nat)
    {id : NodeId} {symbol : Symbol} {span : TokenSpan} {alternatives : List NodeId}
    (found : (arena.forest root tokenCount).node? id = some (.choice symbol span alternatives)) :
    ∃ key ∈ order, ∃ keys, shape key = .choice symbol span keys ∧ (shape key).only? = none ∧
      alternatives = keys.map arena.number := by
  obtain ⟨key, member, none, same⟩ := laid.made found
  cases made : shape key with
  | leaf => simp [made, Shape.node] at same
  | application => simp [made, Shape.node] at same
  | choice ownSymbol ownSpan keys =>
    simp only [made, Shape.node, ForestNode.choice.injEq] at same
    obtain ⟨rfl, rfl, rfl⟩ := same
    exact ⟨key, member, keys, made, made ▸ none, rfl⟩

section
variable (laid : arena.Laid shape order) (settled : Shape.Settled shape order) (root : Option NodeId)
  (tokenCount : Nat)
include laid settled

theorem Laid.exists_node (member : key ∈ order) :
    ∃ node, (arena.forest root tokenCount).node? (arena.number key) = some node ∧
      node.part = (shape key).part ∧ node.span = (shape key).span := by
  have own : ∀ other ∈ order, (shape other).only? = none →
      (arena.forest root tokenCount).node? (arena.number other) =
        some ((shape other).node arena.number) :=
    fun other inside none => laid.node_eq inside none
  cases alone : (shape key).only? with
  | none => exact ⟨_, own key member alone, Shape.part_node _ _, Shape.span_node _ _⟩
  | some only =>
    have stands := laid.stands key member
    rw [Stands, alone] at stands
    obtain ⟨symbol, span, single⟩ := Shape.only?_eq_some_iff.mp alone
    have applies := settled.applied key member _ _ _ single only List.mem_cons_self
    have inside : only ∈ order := settled.closed key member (Shape.only_mem alone)
    refine ⟨_, stands ▸ own only inside applies.only?, ?_⟩
    obtain ⟨rule, children, priority, action, same⟩ := applies
    rw [same, single]
    exact ⟨rfl, rfl⟩

/-- A choice in the forest was made for a key with several alternatives, and applications for these stand
at their numbers. -/
theorem Laid.exists_alternatives {id : NodeId} {symbol : Symbol} {span : TokenSpan}
    {alternatives : List NodeId}
    (found : (arena.forest root tokenCount).node? id = some (.choice symbol span alternatives)) :
    ∃ key ∈ order, ∃ keys, shape key = .choice symbol span keys ∧ 2 ≤ keys.length ∧
      alternatives = keys.map arena.number ∧ ∀ other ∈ keys, (shape other).Applies symbol span ∧
        (arena.forest root tokenCount).node? (arena.number other) =
          some ((shape other).node arena.number) := by
  obtain ⟨key, member, keys, same, none, rfl⟩ := laid.exists_choice root tokenCount found
  refine ⟨key, member, keys, same, ?_, rfl, ?_⟩
  · match keys, same with
    | [], same => exact absurd same (settled.chosen key member symbol span)
    | [only], same => rw [same] at none; cases none
    | first :: second :: rest, _ => simp
  · intro other chosen
    have applies := settled.applied key member _ _ _ same other chosen
    have there : other ∈ order := settled.closed key member (by rw [same]; exact chosen)
    exact ⟨applies, laid.node_eq there applies.only?⟩

theorem Laid.applied_forest {id : NodeId} {symbol : Symbol} {span : TokenSpan} {alternatives : List NodeId}
    (found : (arena.forest root tokenCount).node? id = some (.choice symbol span alternatives)) :
    2 ≤ alternatives.length ∧ ∀ alternative ∈ alternatives,
      ∃ node, (arena.forest root tokenCount).node? alternative = some node ∧ node.Applies symbol span := by
  obtain ⟨_, -, keys, -, several, rfl, applied⟩ := laid.exists_alternatives settled root tokenCount found
  rw [List.length_map]
  refine ⟨several, ?_⟩
  intro alternative inside
  obtain ⟨other, chosen, rfl⟩ := List.mem_map.mp inside
  obtain ⟨⟨rule, children, priority, action, same⟩, there⟩ := applied other chosen
  exact ⟨_, there, rule, children.map arena.number, priority, action, by rw [same]; rfl⟩

/-- What is laid out from keys that refer to keys within their spans is a well-formed forest. -/
theorem Laid.isWellFormed (nested : ∀ key ∈ order, ∀ target ∈ (shape key).targets,
    (shape key).span.contains (shape target).span = true) :
    (arena.forest root tokenCount).isWellFormed = true := by
  apply Forest.isWellFormed_iff.mpr
  intro id node found
  constructor
  · intro child below
    refine ⟨(laid.layered_forest root tokenCount).earlier id node found child below, ?_⟩
    obtain ⟨key, member, -, rfl⟩ := laid.made found
    rw [Shape.successors_node] at below
    obtain ⟨target, inside, rfl⟩ := List.mem_map.mp below
    obtain ⟨inner, there, -, span⟩ :=
      laid.exists_node settled root tokenCount (settled.closed key member inside)
    refine ⟨inner, there, ?_⟩
    rw [Shape.span_node, span]
    exact nested key member target inside
  · rintro symbol span alternatives rfl
    exact laid.applied_forest settled root tokenCount found

end

section
variable (laid : arena.Laid shape order) (arranged : Shape.Arranged shape order) (root : Option NodeId)
  (tokenCount : Nat)
include laid arranged

theorem Laid.part?_number (member : key ∈ order) :
    (arena.forest root tokenCount).part? (arena.number key) = some (shape key).part := by
  obtain ⟨node, found, part, -⟩ := laid.exists_node arranged.toSettled root tokenCount member
  rw [Forest.part?, found, Option.map_some, part]

theorem Laid.packing?_number (member : key ∈ order) (none : (shape key).only? = none) :
    (arena.forest root tokenCount).packing? (arena.number key) = (shape key).packing? shape := by
  have found : (arena.forest root tokenCount).node? (arena.number key) = _ := laid.node_eq member none
  rw [Forest.packing?, found]
  cases same : shape key with
  | leaf token span => rfl
  | choice symbol span alternatives => rfl
  | application rule symbol span children priority action =>
    have closed := arranged.closed key member
    rw [same] at closed
    have parts : children.filterMap ((arena.forest root tokenCount).part? ∘ arena.number) =
        children.map fun child => (shape child).part := by
      rw [← List.filterMap_eq_map]
      exact List.filterMap_congr fun child inside =>
        laid.part?_number arranged root tokenCount (closed inside)
    simp only [Shape.node, List.filterMap_map, parts, Shape.packing?]

theorem Laid.arranged_forest : (arena.forest root tokenCount).Arranged := by
  refine ⟨laid.layered_forest root tokenCount,
    fun id symbol span alternatives found =>
      (laid.applied_forest arranged.toSettled root tokenCount found).1,
    fun id symbol span alternatives found =>
      (laid.applied_forest arranged.toSettled root tokenCount found).2, ?_⟩
  intro id symbol span alternatives found
  obtain ⟨key, member, keys, same, none, rfl⟩ := laid.exists_choice root tokenCount found
  have packings : keys.map ((arena.forest root tokenCount).packing? ∘ arena.number) =
      keys.map fun alternative => (shape alternative).packing? shape := by
    apply List.map_congr_left
    intro other chosen
    have applies := arranged.applied key member _ _ _ same other chosen
    have there : other ∈ order := arranged.closed key member (by rw [same]; exact chosen)
    exact laid.packing?_number arranged root tokenCount there applies.only?
  rw [List.map_map, packings]
  exact arranged.distinct key member _ _ _ same

end

section
variable (laid : arena.Laid shape order) (root : Option NodeId) (tokenCount : Nat)
include laid

/-- What a key refers to stands at its own number, or at one that its node refers to. -/
theorem Laid.leads (member : key ∈ order) {target : κ} (inside : target ∈ (shape key).targets) :
    arena.number key = arena.number target ∨
      Leads (arena.forest root tokenCount).successorGraph (arena.number key) (arena.number target) := by
  cases alone : (shape key).only? with
  | some only =>
    obtain ⟨symbol, span, single⟩ := Shape.only?_eq_some_iff.mp alone
    have stands := laid.stands key member
    rw [Stands, alone] at stands
    obtain rfl : target = only := by simpa [single, Shape.targets] using inside
    exact Or.inl stands
  | none =>
    refine Or.inr (Forest.leads_iff.mpr ⟨_, laid.node_eq member alone, ?_⟩)
    rw [Shape.successors_node]
    exact List.mem_map_of_mem inside

variable {targets : κ → Option (List κ)} {goal : κ} (ordered : Postordered targets order)
  (known : ∀ key ∈ order, targets key = some (shape key).targets) (start : goal ∈ order)
  (path : Relation.ReflTransGen (Leads targets) goal key)
include ordered known start path

theorem Laid.reaches : key ∈ order ∧
    Relation.ReflTransGen (Leads (arena.forest root tokenCount).successorGraph) (arena.number goal)
      (arena.number key) := by
  induction path with
  | refl => exact ⟨start, .refl⟩
  | tail _ leads ih =>
    obtain ⟨member, reaches⟩ := ih
    refine ⟨ordered.closed member leads, ?_⟩
    obtain ⟨next, found, inside⟩ := leads
    obtain rfl := Option.some.inj (found.symm.trans (known _ member))
    rcases laid.leads root tokenCount member inside with same | further
    · exact same ▸ reaches
    · exact reaches.tail further

/-- No key of a walk has more trees than the goal. -/
theorem Laid.length_le_goal :
    ((arena.forest root tokenCount).trees (arena.number key)).length ≤
      ((arena.forest root tokenCount).trees (arena.number goal)).length :=
  (laid.layered_forest root tokenCount).length_le_of_path (laid.placed goal start)
    (laid.reaches root tokenCount ordered known start path).2

end

end Arena

end Readings
