import Readings.Proofs.NumberedRules
import Readings.Proofs.FirstReading
import Readings.Proofs.PackedForest

/-! Packed forests are canonical. What was filed is made once: every token has one leaf, and every place
one node that stands for all that occurs there, which is the root for the place of the readings. Nothing
is made that the root does not refer to. -/

namespace Readings

/-- The applications that derivations have at a place, each once, in the order in which they occur. -/
def packingsAt (derivations : List Derivation) (place : Slot) : List Packing :=
  (((derivations.flatMap fun derivation => derivation.tree.packings).filter (·.1 == place)).map
    (·.2)).eraseDups

def Part.span : Part → TokenSpan
  | .leaf token => ⟨token, token + 1⟩
  | .slot place => place.span

namespace Forest

/-- Whether a node stands for a place on its own, and not as one of several alternatives. -/
def IsHead (forest : Forest) (place : Slot) (id : NodeId) : Prop :=
  forest.part? id = some (.slot place) ∧
    ∀ other symbol span alternatives,
      forest.node? other = some (.choice symbol span alternatives) → id ∉ alternatives

/-- Whether a node shows what occurs at a place: the one application, or a choice among several. -/
def Shows (forest : Forest) (place : Slot) (id : NodeId) : List Packing → Prop
  | [only] => forest.part? id = some (.slot place) ∧ forest.packing? id = some only
  | packings => ∃ alternatives,
    forest.node? id = some (.choice place.symbol place.span alternatives) ∧
      alternatives.map forest.packing? = packings.map some

theorem Shows.cases {forest : Forest} {place : Slot} {id : NodeId} {packings : List Packing}
    (shows : forest.Shows place id packings) :
    (∃ only, packings = [only] ∧ forest.part? id = some (.slot place) ∧
        forest.packing? id = some only) ∨
      ∃ alternatives, forest.node? id = some (.choice place.symbol place.span alternatives) ∧
        alternatives.map forest.packing? = packings.map some := by
  match packings, shows with
  | [], shows => exact Or.inr shows
  | [only], shows => exact Or.inl ⟨only, rfl, shows⟩
  | first :: second :: rest, shows => exact Or.inr shows

/-- A forest of some readings in which everything is made once. -/
structure IsCanonical (grammar : Grammar) (tokens : Array Token) (derivations : List Derivation)
    (forest : Forest) : Prop where
  wellFormed : forest.isWellFormed = true
  distinct : ∀ id other node, forest.node? id = some node → forest.node? other = some node → id = other
  rooted : ∃ root, forest.root = some root ∧ root + 1 = forest.size ∧
    forest.IsHead ⟨grammar.start, ⟨0, tokens.size⟩⟩ root ∧
    ∀ id < forest.size, Relation.ReflTransGen (Leads forest.successorGraph) root id
  leaves : ∀ token < tokens.size, ∃! id, forest.node? id = some (.leaf token ⟨token, token + 1⟩)
  leaf : ∀ id token span, forest.node? id = some (.leaf token span) →
    token < tokens.size ∧ span = ⟨token, token + 1⟩
  heads : ∀ derivation ∈ derivations, ∀ node ∈ derivation.nodes,
    ∃ id, forest.Shows node.slot id (packingsAt derivations node.slot) ∧
      ∀ other, forest.IsHead node.slot other ↔ other = id
  placed : ∀ id place, forest.part? id = some (.slot place) →
    ∃ derivation ∈ derivations, ∃ node ∈ derivation.nodes, node.slot = place
  children : ∀ id rule symbol span children priority action,
    forest.node? id = some (.application rule symbol span children priority action) →
      ∀ child ∈ children, (∃ token, forest.part? child = some (.leaf token)) ∨
        ∃ place, forest.IsHead place child
  labels : ∀ id rule symbol span children priority action,
    forest.node? id = some (.application rule symbol span children priority action) →
      ∃ definition, grammar.rule rule = .ok definition ∧ definition.priority = priority ∧
        definition.action = action

end Forest

private theorem eraseDups_concat {α : Type} [DecidableEq α] (items : List α) (item : α) :
    (items ++ [item]).eraseDups =
      if item ∈ items.eraseDups then items.eraseDups else items.eraseDups ++ [item] := by
  rw [List.eraseDups_append]
  by_cases known : item ∈ items <;> simp [List.removeAll, known, List.eraseDups_cons]

theorem alternatives_ofDerivations (derivations : List Derivation) (place : Slot) :
    (Filing.ofDerivations derivations).alternatives place = packingsAt derivations place := by
  rw [Filing.ofDerivations, packingsAt]
  generalize derivations.flatMap (fun derivation => derivation.tree.packings) = entries
  induction entries using List.reverseRecOn with
  | nil => simp [Filing.alternatives, Filing.empty]
  | append_singleton entries entry ih =>
    rw [List.foldl_append, List.foldl_cons, List.foldl_nil, Filing.alternatives_add, ih,
      List.filter_append, List.map_append]
    by_cases same : entry.1 = place
    · simp only [List.filter_singleton, same, beq_self_eq_true, cond_true, List.map_singleton,
        eraseDups_concat, true_and, ite_not]
    · simp only [List.filter_singleton, same, beq_eq_false_iff_ne.mpr same, cond_false, List.map_nil,
        List.append_nil, false_and, if_false]

variable {grammar : Grammar} {tokens : Array Token} {derivations : List Derivation}

theorem mem_packingsAt {place : Slot} {packing : Packing} :
    packing ∈ packingsAt derivations place ↔
      ∃ node ∈ derivations.flatMap Derivation.nodes, node.slot = place ∧ node.packing = packing := by
  rw [← alternatives_ofDerivations]
  exact Filing.filedFrom_ofDerivations derivations place packing

theorem Derives.part_span {element : Element} {start stop : Nat} {tree : Tree}
    (derived : Derives grammar tokens element start stop tree) : tree.part.span = ⟨start, stop⟩ := by
  cases derived <;> rfl

theorem Harvest.contains {nodes : List Derivation} (harvest : Harvest grammar tokens nodes)
    {node : Derivation} (member : node ∈ nodes) {child : Tree} (below : child ∈ node.children) :
    node.span.contains child.part.span = true := by
  obtain ⟨rule, lhs, ⟨start, stop⟩, children⟩ := node
  cases harvest.derives _ member with
  | application known all =>
    obtain ⟨front, element, back, first, last, _, _, -, before, here, behind⟩ := all.around below
    rw [here.part_span]
    simp only [TokenSpan.contains, Bool.and_eq_true, decide_eq_true_eq]
    exact ⟨before.le, behind.le⟩

mutual
/-- A token that a tree covers is the tree, or a child of a node in it. -/
theorem Derives.exists_leaf {element start stop tree} {token : Nat} (late : start ≤ token)
    (early : token < stop) : Derives grammar tokens element start stop tree →
      tree = .leaf token ∨ ∃ node ∈ tree.nodes, .leaf token ∈ node.children
  | .token _ _ => Or.inl (by rw [Nat.le_antisymm (Nat.le_of_lt_succ early) late])
  | .application _ below => by
    rcases below.exists_leaf late early with here | ⟨node, inside, child⟩
    · exact Or.inr ⟨_, List.mem_cons_self, here⟩
    · exact Or.inr ⟨node, List.mem_cons_of_mem _ inside, child⟩

theorem DerivesAll.exists_leaf {elements start stop trees} {token : Nat} (late : start ≤ token)
    (early : token < stop) : DerivesAll grammar tokens elements start stop trees →
      .leaf token ∈ trees ∨ ∃ node ∈ Tree.nodesOf trees, .leaf token ∈ node.children
  | .nil => absurd late (Nat.not_le.mpr early)
  | @DerivesAll.cons _ _ _ _ _ middle _ _ _ first rest => by
    by_cases within : token < middle
    · rcases first.exists_leaf late within with rfl | ⟨node, inside, child⟩
      · exact Or.inl List.mem_cons_self
      · exact Or.inr ⟨node, List.mem_append_left _ inside, child⟩
    · rcases rest.exists_leaf (Nat.le_of_not_lt within) early with here | ⟨node, inside, child⟩
      · exact Or.inl (List.mem_cons_of_mem _ here)
      · exact Or.inr ⟨node, List.mem_append_right _ inside, child⟩
end

mutual
private theorem tree_placed {nodes : List Derivation} {order : List Emission}
    (closed : ∀ node ∈ nodes, .slot node.slot ∈ order →
      ∀ child ∈ node.children, Emission.ofPart child.part ∈ order) :
    ∀ tree : Tree, tree.nodes ⊆ nodes → Emission.ofPart tree.part ∈ order →
      ∀ node ∈ tree.nodes, .slot node.slot ∈ order
  | .leaf _, _, _, _, member => absurd member List.not_mem_nil
  | .node rule lhs span children, inside, made, node, member => by
    rcases List.mem_cons.mp member with rfl | below
    · exact made
    · exact trees_placed closed children (List.subset_of_cons_subset inside)
        (closed _ (inside List.mem_cons_self) made) node below

private theorem trees_placed {nodes : List Derivation} {order : List Emission}
    (closed : ∀ node ∈ nodes, .slot node.slot ∈ order →
      ∀ child ∈ node.children, Emission.ofPart child.part ∈ order) :
    ∀ trees : List Tree, Tree.nodesOf trees ⊆ nodes →
      (∀ tree ∈ trees, Emission.ofPart tree.part ∈ order) →
      ∀ node ∈ Tree.nodesOf trees, .slot node.slot ∈ order
  | [], _, _, _, member => absurd member List.not_mem_nil
  | tree :: trees, inside, made, node, member => by
    obtain ⟨first, rest⟩ := List.append_subset.mp inside
    rw [List.forall_mem_cons] at made
    rcases List.mem_append.mp member with here | later
    · exact tree_placed closed tree first made.1 node here
    · exact trees_placed closed trees rest made.2 node later
end

namespace Emission

theorem span_ofPart (filing : Filing) (part : Part) :
    ((ofPart part).shape grammar filing).span = part.span := by
  cases part <;> rfl

/-- What is made for itself can be told by its place and its application. -/
theorem eq_of_shape {filing : Filing} {emission other : Emission}
    (part : (emission.shape grammar filing).part = (other.shape grammar filing).part)
    (packing : (emission.shape grammar filing).packing? (shape grammar filing) =
      (other.shape grammar filing).packing? (shape grammar filing)) : emission = other := by
  cases emission with
  | leaf token =>
    cases other with
    | leaf => exact congrArg leaf (Part.leaf.inj part)
    | slot => cases part
    | alternative => cases part
  | slot place =>
    cases other with
    | leaf => cases part
    | slot => exact congrArg slot (Part.slot.inj part)
    | alternative => cases packing
  | alternative place known =>
    cases other with
    | leaf => cases part
    | slot => cases packing
    | alternative =>
      rw [packing?_alternative, packing?_alternative] at packing
      obtain rfl : place = _ := Part.slot.inj part
      obtain rfl := Option.some.inj packing
      rfl

end Emission

namespace Layout

variable {order : List Emission} {arena : Arena Emission}
  (layout : Layout grammar tokens derivations order arena)
include layout

theorem alternative_mem {place : Slot} {packing : Packing} (made : .slot place ∈ order)
    (listed : packing ∈ packingsAt derivations place) : .alternative place packing ∈ order := by
  refine layout.ordered.closed made (Emission.leads_iff.mpr (List.mem_map_of_mem ?_))
  rwa [alternatives_ofDerivations]

theorem part_mem {place : Slot} {packing : Packing} (made : .alternative place packing ∈ order)
    {part : Part} (inside : part ∈ packing.parts) : Emission.ofPart part ∈ order :=
  layout.ordered.closed made (Emission.leads_iff.mpr (List.mem_map_of_mem inside))

theorem child_mem {node : Derivation} (member : node ∈ derivations.flatMap Derivation.nodes)
    (made : .slot node.slot ∈ order) {child : Tree} (below : child ∈ node.children) :
    Emission.ofPart child.part ∈ order := by
  have listed := mem_packingsAt.mpr ⟨node, member, rfl, rfl⟩
  exact layout.part_mem (layout.alternative_mem made listed) (List.mem_map_of_mem below)

section
variable (readings : ∀ derivation ∈ derivations, IsReading grammar tokens derivation)
include readings

theorem slot_mem {node : Derivation} (member : node ∈ derivations.flatMap Derivation.nodes) :
    .slot node.slot ∈ order := by
  obtain ⟨derivation, known, below⟩ := List.mem_flatMap.mp member
  have start : Emission.ofPart derivation.tree.part ∈ order := by
    have whole : Emission.ofPart derivation.tree.part = Emission.whole grammar tokens :=
      congrArg Emission.slot (slot_of_reading (readings derivation known))
    rw [whole]
    exact layout.start
  refine tree_placed (fun node inside made child below => layout.child_mem inside made below)
    derivation.tree ?_ start node below
  exact fun other inside => List.mem_flatMap.mpr ⟨derivation, known, inside⟩

theorem leaf_mem (some : derivations ≠ []) {token : Nat} (inside : token < tokens.size) :
    .leaf token ∈ order := by
  obtain ⟨derivation, known⟩ := List.exists_mem_of_ne_nil _ some
  rcases (readings derivation known).exists_leaf (Nat.zero_le token) inside with
    alone | ⟨node, below, child⟩
  · cases alone
  · have member : node ∈ derivations.flatMap Derivation.nodes :=
      List.mem_flatMap.mpr ⟨derivation, known, below⟩
    exact layout.child_mem member (layout.slot_mem readings member) child

end

variable (root : Option NodeId) (tokenCount : Nat)

theorem part?_number {emission : Emission} (member : emission ∈ order) :
    (arena.forest root tokenCount).part? (arena.number emission) =
      some (emission.shape grammar (Filing.ofDerivations derivations)).part :=
  layout.laid.part?_number layout.arranged root tokenCount member

theorem packing?_number {place : Slot} {packing : Packing} (member : .alternative place packing ∈ order) :
    (arena.forest root tokenCount).packing? (arena.number (.alternative place packing)) =
      some packing := by
  rw [layout.laid.packing?_number layout.arranged root tokenCount member rfl,
    Emission.packing?_alternative]

theorem choice_eq {place : Slot} (made : .slot place ∈ order)
    (several : ((Emission.slot place).shape grammar (Filing.ofDerivations derivations)).only? = none) :
    (arena.forest root tokenCount).node? (arena.number (.slot place)) =
      some (.choice place.symbol place.span ((packingsAt derivations place).map fun packing =>
        arena.number (.alternative place packing))) := by
  have found := layout.laid.node_eq made several
  rw [Emission.shape, Shape.node, List.map_map, alternatives_ofDerivations] at found
  exact found

theorem shows {place : Slot} (made : .slot place ∈ order) :
    (arena.forest root tokenCount).Shows place (arena.number (.slot place))
      (packingsAt derivations place) := by
  have made_alternative : ∀ packing ∈ packingsAt derivations place,
      (arena.forest root tokenCount).packing? (arena.number (.alternative place packing)) = some packing :=
    fun packing listed => layout.packing?_number root tokenCount (layout.alternative_mem made listed)
  have choice := layout.choice_eq root tokenCount made
  have stands := layout.laid.stands _ made
  simp only [Arena.Stands, Emission.shape, alternatives_ofDerivations] at choice stands
  generalize packingsAt derivations place = packings at made_alternative choice stands
  have several : ((Shape.choice place.symbol place.span
      (packings.map (Emission.alternative place))).only? = none) →
      ∃ alternatives, (arena.forest root tokenCount).node? (arena.number (.slot place)) =
          some (.choice place.symbol place.span alternatives) ∧
        alternatives.map (arena.forest root tokenCount).packing? = packings.map some := by
    intro none
    refine ⟨_, choice none, ?_⟩
    rw [List.map_map]
    exact List.map_congr_left made_alternative
  cases packings with
  | nil => exact several rfl
  | cons only rest =>
    cases rest with
    | nil =>
      have same : arena.number (.slot place) = arena.number (.alternative place only) := stands
      refine ⟨layout.part?_number root tokenCount made, ?_⟩
      rw [same]
      exact made_alternative only List.mem_cons_self
    | cons second rest => exact several rfl

theorem isHead {place : Slot} (made : .slot place ∈ order) :
    (arena.forest root tokenCount).IsHead place (arena.number (.slot place)) := by
  have part := layout.part?_number root tokenCount made
  refine ⟨part, ?_⟩
  intro other symbol span alternatives found listed
  obtain ⟨key, member, keys, same, several, rfl⟩ := layout.laid.exists_choice root tokenCount found
  obtain ⟨rfl, rfl⟩ := slot_of_choice same
  obtain ⟨_, chosen, equal⟩ := List.mem_map.mp listed
  obtain ⟨packing, inside, rfl⟩ := List.mem_map.mp chosen
  rw [alternatives_ofDerivations] at inside
  have there := layout.alternative_mem member inside
  rw [← equal, layout.part?_number root tokenCount there] at part
  obtain rfl : _ = place := Part.slot.inj (Option.some.inj part)
  have applied := layout.packing?_number root tokenCount there
  rw [equal, Forest.packing?, layout.choice_eq root tokenCount made several] at applied
  cases applied

theorem exists_of_part? {id : NodeId} {part : Part}
    (stands : (arena.forest root tokenCount).part? id = some part) :
    ∃ emission ∈ order, arena.number emission = id ∧
      (emission.shape grammar (Filing.ofDerivations derivations)).part = part := by
  obtain ⟨node, found, -⟩ := Option.map_eq_some_iff.mp stands
  obtain ⟨emission, member, -, rfl⟩ := layout.laid.keyed id (Forest.node?_isSome_iff.mp ⟨node, found⟩)
  rw [layout.part?_number root tokenCount member] at stands
  exact ⟨emission, member, rfl, Option.some.inj stands⟩

theorem eq_of_isHead (readings : ∀ derivation ∈ derivations, IsReading grammar tokens derivation)
    {place : Slot} {id : NodeId} (head : (arena.forest root tokenCount).IsHead place id) :
    id = arena.number (.slot place) := by
  obtain ⟨stands, alone⟩ := head
  obtain ⟨emission, member, rfl, part⟩ := layout.exists_of_part? root tokenCount stands
  cases emission with
  | leaf token => cases part
  | slot own =>
    obtain rfl : own = place := Part.slot.inj part
    rfl
  | alternative own packing =>
    obtain rfl : own = place := Part.slot.inj part
    obtain ⟨node, known, rfl, rfl⟩ := layout.known _ member
    have made := layout.slot_mem readings known
    have listed := mem_packingsAt.mpr ⟨node, known, rfl, rfl⟩
    cases single : ((Emission.slot node.slot).shape grammar (Filing.ofDerivations derivations)).only? with
    | none => exact absurd (List.mem_map_of_mem listed) (alone _ _ _ _ (layout.choice_eq _ _ made single))
    | some only =>
      have stands := layout.laid.stands _ made
      rw [Arena.Stands, single] at stands
      have chosen : Emission.alternative node.slot node.packing ∈ [only] := by
        obtain ⟨symbol, span, same⟩ := Shape.only?_eq_some_iff.mp single
        rw [← (Shape.choice.inj same).2.2, alternatives_ofDerivations]
        exact List.mem_map_of_mem listed
      rw [stands, List.mem_singleton.mp chosen]

theorem distinct {id other : NodeId} {node : ForestNode}
    (found : (arena.forest root tokenCount).node? id = some node)
    (there : (arena.forest root tokenCount).node? other = some node) : id = other := by
  have part : (arena.forest root tokenCount).part? id = (arena.forest root tokenCount).part? other := by
    rw [Forest.part?, Forest.part?, found, there]
  have packing : (arena.forest root tokenCount).packing? id =
      (arena.forest root tokenCount).packing? other := by
    rw [Forest.packing?, Forest.packing?, found, there]
  obtain ⟨emission, member, none, rfl⟩ := layout.laid.keyed id (Forest.node?_isSome_iff.mp ⟨node, found⟩)
  obtain ⟨twin, made, alone, rfl⟩ := layout.laid.keyed other (Forest.node?_isSome_iff.mp ⟨node, there⟩)
  rw [layout.part?_number _ _ member, layout.part?_number _ _ made] at part
  rw [layout.laid.packing?_number layout.arranged _ _ member none,
    layout.laid.packing?_number layout.arranged _ _ made alone] at packing
  rw [Emission.eq_of_shape (Option.some.inj part) packing]

theorem leaf_eq {id : NodeId} {token : Nat} {span : TokenSpan}
    (found : (arena.forest root tokenCount).node? id = some (.leaf token span)) :
    token < tokens.size ∧ span = ⟨token, token + 1⟩ := by
  obtain ⟨emission, member, -, same⟩ := layout.laid.made found
  cases emission with
  | leaf own =>
    obtain ⟨rfl, rfl⟩ := ForestNode.leaf.inj same
    exact ⟨layout.known _ member, rfl⟩
  | slot => cases same
  | alternative => cases same

theorem exists_leaf (readings : ∀ derivation ∈ derivations, IsReading grammar tokens derivation)
    (some : derivations ≠ []) {token : Nat} (inside : token < tokens.size) :
    ∃! id, (arena.forest root tokenCount).node? id = .some (.leaf token ⟨token, token + 1⟩) := by
  have found : (arena.forest root tokenCount).node? (arena.number (.leaf token)) =
      .some (.leaf token ⟨token, token + 1⟩) :=
    layout.laid.node_eq (layout.leaf_mem readings some inside) rfl
  exact ⟨_, found, fun other there => layout.distinct root tokenCount there found⟩

theorem placed {id : NodeId} {place : Slot}
    (part : (arena.forest root tokenCount).part? id = some (.slot place)) :
    ∃ derivation ∈ derivations, ∃ node ∈ derivation.nodes, node.slot = place := by
  obtain ⟨emission, member, -, same⟩ := layout.exists_of_part? root tokenCount part
  have known : ∃ node ∈ derivations.flatMap Derivation.nodes, node.slot = place := by
    have filed := layout.known _ member
    cases emission with
    | leaf token => cases same
    | slot own =>
      obtain rfl : own = place := Part.slot.inj same
      exact filed
    | alternative own packing =>
      obtain rfl : own = place := Part.slot.inj same
      obtain ⟨node, inside, slot, -⟩ := filed
      exact ⟨node, inside, slot⟩
  obtain ⟨node, inside, slot⟩ := known
  obtain ⟨derivation, known, below⟩ := List.mem_flatMap.mp inside
  exact ⟨derivation, known, node, below, slot⟩

section
variable {id : NodeId} {rule : RuleId} {symbol : Symbol} {span : TokenSpan} {children : List NodeId}
  {priority : Int} {action : Option String}
  (found : (arena.forest root tokenCount).node? id =
    some (.application rule symbol span children priority action))
include found

theorem exists_application :
    ∃ node ∈ derivations.flatMap Derivation.nodes, node.slot = ⟨symbol, span⟩ ∧ node.rule = rule ∧
      .alternative node.slot node.packing ∈ order ∧
      children = (node.packing.parts.map Emission.ofPart).map arena.number ∧
      priority = ((grammar.rule? rule).map (·.priority)).getD 0 ∧
      action = (grammar.rule? rule).bind (·.action) := by
  obtain ⟨emission, member, -, same⟩ := layout.laid.made found
  cases emission with
  | leaf => cases same
  | slot => cases same
  | alternative place packing =>
    obtain ⟨node, known, rfl, rfl⟩ := layout.known _ member
    obtain ⟨rfl, rfl, rfl, rfl, rfl, rfl⟩ := ForestNode.application.inj same
    exact ⟨node, known, rfl, rfl, member, rfl, rfl, rfl⟩

theorem child_of_application {child : NodeId} (inside : child ∈ children) :
    (∃ token, (arena.forest root tokenCount).part? child = some (.leaf token)) ∨
      ∃ place, (arena.forest root tokenCount).IsHead place child := by
  obtain ⟨node, -, -, -, member, rfl, -⟩ := layout.exists_application root tokenCount found
  obtain ⟨_, chosen, rfl⟩ := List.mem_map.mp inside
  obtain ⟨part, listed, rfl⟩ := List.mem_map.mp chosen
  have made := layout.part_mem member listed
  cases part with
  | leaf token => exact Or.inl ⟨token, layout.part?_number root tokenCount made⟩
  | slot place => exact Or.inr ⟨place, layout.isHead root tokenCount made⟩

theorem labels (harvest : Harvest grammar tokens (derivations.flatMap Derivation.nodes)) :
    ∃ definition, grammar.rule rule = .ok definition ∧ definition.priority = priority ∧
      definition.action = action := by
  obtain ⟨node, known, -, rfl, -, -, rfl, rfl⟩ := layout.exists_application root tokenCount found
  obtain ⟨rule, lhs, span, children⟩ := node
  cases harvest.derives _ known with
  | application applied _ =>
    obtain ⟨definition, found, -, -⟩ := Grammar.rule_of_lhs applied
    refine ⟨definition, ?_, ?_, ?_⟩ <;> simp [Grammar.rule, Grammar.rule?, found]

end

theorem nested (harvest : Harvest grammar tokens (derivations.flatMap Derivation.nodes)) :
    ∀ emission ∈ order,
      ∀ target ∈ (emission.shape grammar (Filing.ofDerivations derivations)).targets,
        (emission.shape grammar (Filing.ofDerivations derivations)).span.contains
          (target.shape grammar (Filing.ofDerivations derivations)).span = true := by
  intro emission member target chosen
  cases emission with
  | leaf token => exact absurd chosen List.not_mem_nil
  | slot own =>
    obtain ⟨packing, -, rfl⟩ := List.mem_map.mp chosen
    simp [Emission.shape, Shape.span, TokenSpan.contains]
  | alternative own packing =>
    obtain ⟨part, listed, rfl⟩ := List.mem_map.mp chosen
    obtain ⟨node, known, rfl, rfl⟩ := layout.known _ member
    obtain ⟨tree, inside, rfl⟩ := List.mem_map.mp listed
    rw [Emission.span_ofPart]
    exact harvest.contains known inside

theorem wellFormed (harvest : Harvest grammar tokens (derivations.flatMap Derivation.nodes)) :
    (arena.forest root tokenCount).isWellFormed = true :=
  layout.laid.isWellFormed layout.arranged.toSettled root tokenCount (layout.nested harvest)

end Layout

/-- The packed forest of some readings is canonical. -/
theorem exists_canonical (acyclic : unitCycle? grammar.rules.toList = none)
    (bound : tokens.size < countBound) (some : derivations ≠ [])
    (readings : ∀ derivation ∈ derivations, IsReading grammar tokens derivation) :
    ∃ forest, Forest.ofDerivations grammar derivations tokens.size = .ok forest ∧
      forest.IsCanonical grammar tokens derivations := by
  obtain ⟨order, arena, layout, made⟩ := exists_layout acyclic bound some readings
  have harvest := harvest_readings readings
  refine ⟨_, made, ?_⟩
  constructor
  · exact layout.wellFormed _ _ harvest
  · exact fun id other node found there => layout.distinct _ _ found there
  · have reaches : ∀ id < arena.nodes.size, Relation.ReflTransGen
        (Leads (arena.forest (arena.number (Emission.whole grammar tokens)) tokens.size).successorGraph)
        (arena.number (Emission.whole grammar tokens)) id := by
      intro id inside
      obtain ⟨emission, member, -, rfl⟩ := layout.laid.keyed id inside
      exact (layout.laid.reaches _ _ layout.ordered (fun emission _ => Emission.graph_eq grammar _ emission)
        layout.start (layout.paths emission member)).2
    have last := (layout.laid.layered_forest _ _).last_of_reaches (layout.laid.placed _ layout.start) reaches
    exact ⟨_, rfl, last, layout.isHead _ _ layout.start, reaches⟩
  · exact fun token inside => layout.exists_leaf _ _ readings some inside
  · exact fun id token span found => layout.leaf_eq _ _ found
  · intro derivation known node below
    have made := layout.slot_mem readings (List.mem_flatMap.mpr ⟨derivation, known, below⟩)
    refine ⟨_, layout.shows _ _ made, fun other => ⟨layout.eq_of_isHead _ _ readings, ?_⟩⟩
    rintro rfl
    exact layout.isHead _ _ made
  · exact fun id place part => layout.placed _ _ part
  · exact fun id rule symbol span children priority action found child inside =>
      layout.child_of_application _ _ found inside
  · exact fun id rule symbol span children priority action found => layout.labels _ _ found harvest

/-- Whatever was extracted, packing it gives a canonical forest. -/
theorem packed_forest_canonical {draft : GrammarDraft} {grammar : Grammar}
    (built : draft.build = .ok grammar) (config : ChartConfig) (tokens : Array Token)
    (short : tokens.size < countBound) (limit : Nat) :
    ∃ selection, (Chart.build grammar config tokens).extract grammar limit = .ok selection ∧
      (selection.derivations ≠ [] → ∃ forest,
        Forest.ofDerivations grammar selection.derivations tokens.size = .ok forest ∧
          forest.IsCanonical grammar tokens selection.derivations) := by
  have acyclic := GrammarDraft.acyclic_of_build built
  obtain ⟨selection, selects⟩ := Chart.exists_selects acyclic config tokens limit
  exact ⟨selection, selects.extracted, fun some => exists_canonical acyclic short some selects.readings⟩

/-- Three ones have two readings, which share all but the choice at the root. -/
theorem threeOnes_canonical :
    sumsDraft.build = .ok sums ∧ threeOnes.size < countBound ∧
      ∃ selection forest, (Chart.build sums {} threeOnes).extract sums 64 = .ok selection ∧
        Forest.ofDerivations sums selection.derivations threeOnes.size = .ok forest ∧
          forest.IsCanonical sums threeOnes selection.derivations := by
  have short : threeOnes.size < countBound := by decide +kernel
  have success : (Chart.build sums {} threeOnes).outcome = .success := by decide +kernel
  obtain ⟨selection, extracted, canonical⟩ :=
    packed_forest_canonical sumsDraft_builds {} threeOnes short 64
  obtain ⟨other, selects⟩ :=
    Chart.exists_selects (GrammarDraft.acyclic_of_build sumsDraft_builds) {} threeOnes 64
  obtain rfl := Except.ok.inj (extracted.symm.trans selects.extracted)
  obtain ⟨forest, packed, canonical⟩ := canonical (selects.some_iff.mpr success)
  exact ⟨sumsDraft_builds, short, selection, forest, extracted, packed, canonical⟩

end Readings
