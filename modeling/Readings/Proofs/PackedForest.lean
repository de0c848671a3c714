import Readings.Proofs.Answers
import Readings.Proofs.ArrangedForest
import Readings.Proofs.EmissionOrder
import Readings.Proofs.ForestCounts
import Readings.Proofs.WalkOrder

/-! The packed forest of some readings. At every place it has exactly the trees that come from combining
what was filed below; all of them are derived from the grammar, the filed ones are among them, and none
comes twice. -/

namespace Readings

variable {grammar : Grammar} {tokens : Array Token} {nodes : List Derivation} {filing : Filing}

namespace Emission

def shape (grammar : Grammar) (filing : Filing) : Emission → Shape Emission
  | .leaf token => .leaf token ⟨token, token + 1⟩
  | .slot place =>
    .choice place.symbol place.span ((filing.alternatives place).map (.alternative place))
  | .alternative place packing =>
    .application packing.rule place.symbol place.span (packing.parts.map ofPart)
      (((grammar.rule? packing.rule).map (·.priority)).getD 0)
      ((grammar.rule? packing.rule).bind (·.action))

theorem targets_shape (emission : Emission) :
    (emission.shape grammar filing).targets = emission.requires filing := by
  cases emission <;> rfl

theorem graph_eq (grammar : Grammar) (filing : Filing) (emission : Emission) :
    graph filing emission = some (emission.shape grammar filing).targets := by
  rw [targets_shape]
  rfl

theorem emit_eq (bound : tokens.size < countBound) (harvest : Harvest grammar tokens nodes)
    {emission : Emission} (filed : emission.IsFiled tokens nodes) (arena : Arena Emission) :
    emit grammar filing arena emission = .ok (arena.lay (shape grammar filing) emission) := by
  cases emission with
  | leaf token =>
    have small : token + 1 < countBound := Nat.lt_of_le_of_lt filed bound
    simp only [emit, TokenSpan.single, addCounts, if_pos small]
    rfl
  | slot place =>
    simp only [emit, Arena.lay, shape]
    cases filing.alternatives place with
    | nil => rfl
    | cons first rest =>
      cases rest with
      | nil => rfl
      | cons second rest =>
        simp only [List.map_cons, Shape.only?, Shape.node, List.map_map]
        rfl
  | alternative place packing =>
    obtain ⟨node, member, rfl, rfl⟩ := filed
    obtain ⟨rule, lhs, span, children⟩ := node
    cases harvest.derives _ member with
    | application known _ =>
      obtain ⟨rule, found, -, -⟩ := Grammar.rule_of_lhs known
      simp only [emit, Derivation.packing, Derivation.slot, Grammar.rule, Grammar.rule?, found, Arena.lay,
        shape, Shape.only?, Shape.node, List.map_map]
      rfl

section
variable (grammar : Grammar) (tokens : Array Token) (nodes : List Derivation)

/-- What a tree that stands for an emission has to be. -/
def Denotes : Emission → Tree → Prop
  | .leaf token, tree => tree = .leaf token
  | .slot place, tree =>
    Derives grammar tokens (.nonTerminal place.symbol) place.span.start place.span.stop tree
  | .alternative place packing, tree =>
    Derives grammar tokens (.nonTerminal place.symbol) place.span.start place.span.stop tree ∧
      ∃ children, tree = .node packing.rule place.symbol place.span children ∧
        children.map Tree.part = packing.parts

def Files : Emission → Tree → Prop
  | .leaf token, tree => tree = .leaf token
  | .slot place, tree => ∃ node ∈ nodes, node.slot = place ∧ tree = node.tree
  | .alternative place packing, tree =>
    ∃ node ∈ nodes, node.slot = place ∧ node.packing = packing ∧ tree = node.tree

/-- The trees of an emission are right, among them those that were filed, and none comes twice. -/
structure Faithful (lists : Emission → List Tree) (emission : Emission) : Prop where
  distinct : (lists emission).Nodup
  sound : ∀ tree ∈ lists emission, emission.Denotes grammar tokens tree
  complete : ∀ tree, emission.Files nodes tree → tree ∈ lists emission

end

variable {lists : Emission → List Tree}

private theorem faithful_slot {place : Slot} (distinct : (filing.alternatives place).Nodup)
    (filed : filing.FiledFrom nodes)
    (below : ∀ packing ∈ filing.alternatives place,
      Faithful grammar tokens nodes lists (.alternative place packing))
    (solves : lists (.slot place) = (Emission.slot place |>.shape grammar filing).fullTrees lists) :
    Faithful grammar tokens nodes lists (.slot place) := by
  have trees : lists (.slot place) =
      (filing.alternatives place).flatMap fun packing => lists (.alternative place packing) := by
    rw [solves]
    exact List.flatMap_map ..
  constructor
  · rw [trees]
    apply List.nodup_flatMap.mpr
    refine ⟨fun packing member => (below packing member).distinct, ?_⟩
    apply distinct.imp_of_mem
    intro packing other first second differ tree here there
    obtain ⟨_, children, rfl, parts⟩ := (below packing first).sound tree here
    obtain ⟨_, others, same, otherParts⟩ := (below other second).sound _ there
    obtain ⟨rule, -, -, rfl⟩ := Tree.node.inj same
    have equal : Packing.mk packing.rule packing.parts = ⟨other.rule, other.parts⟩ := by
      rw [rule, ← parts, ← otherParts]
    exact differ equal
  · intro tree member
    rw [trees] at member
    obtain ⟨packing, inside, made⟩ := List.mem_flatMap.mp member
    exact ((below packing inside).sound tree made).1
  · intro tree files
    obtain ⟨node, member, rfl, rfl⟩ := files
    rw [trees]
    have inside := (filed node.slot node.packing).mpr ⟨node, member, rfl, rfl⟩
    exact List.mem_flatMap.mpr ⟨_, inside, (below _ inside).complete _ ⟨node, member, rfl, rfl, rfl⟩⟩

private theorem denotes_part {element : Element} {start stop : Nat} {child tree : Tree}
    (derived : Derives grammar tokens element start stop child)
    (denotes : (ofPart child.part).Denotes grammar tokens tree) :
    Derives grammar tokens element start stop tree ∧ tree.part = child.part := by
  cases derived with
  | token found accepted =>
    obtain rfl : tree = _ := denotes
    exact ⟨.token found accepted, rfl⟩
  | application =>
    have derived : Derives grammar tokens _ start stop tree := denotes
    refine ⟨derived, ?_⟩
    cases derived
    rfl

private theorem denotes_parts {elements : List Element} {start stop : Nat} {children trees : List Tree}
    (derived : DerivesAll grammar tokens elements start stop children)
    (below : ∀ child ∈ children, Faithful grammar tokens nodes lists (ofPart child.part))
    (chosen : List.Forall₂ (fun tree child => tree ∈ lists (ofPart child.part)) trees children) :
    DerivesAll grammar tokens elements start stop trees ∧ trees.map Tree.part = children.map Tree.part := by
  induction chosen generalizing elements start with
  | nil => exact ⟨derived, rfl⟩
  | cons first _ ih =>
    simp only [List.forall_mem_cons] at below
    cases derived with
    | cons here rest =>
      obtain ⟨tree, part⟩ := denotes_part here (below.1.sound _ first)
      obtain ⟨trees, parts⟩ := ih rest below.2
      exact ⟨.cons tree trees, by rw [List.map_cons, List.map_cons, part, parts]⟩

private theorem files_part {node : Derivation} (harvest : Harvest grammar tokens nodes)
    (member : node ∈ nodes) {child : Tree} (below : child ∈ node.children) :
    (ofPart child.part).Files nodes child := by
  cases child with
  | leaf token => rfl
  | node rule lhs span children =>
    exact ⟨⟨rule, lhs, span, children⟩, harvest.below node member _ below _ rfl, rfl, rfl⟩

private theorem mem_parts (node : Derivation) {trees : List Tree} :
    trees ∈ sequences lists (node.packing.parts.map ofPart) ↔
      List.Forall₂ (fun tree child => tree ∈ lists (ofPart child.part)) trees node.children := by
  rw [mem_sequences, List.forall₂_map_right_iff, Derivation.packing, List.forall₂_map_right_iff]

private theorem faithful_alternative (harvest : Harvest grammar tokens nodes) {place : Slot}
    {packing : Packing} (filed : ∃ node ∈ nodes, node.slot = place ∧ node.packing = packing)
    (below : ∀ part ∈ packing.parts, Faithful grammar tokens nodes lists (ofPart part))
    (solves : lists (.alternative place packing) =
      ((alternative place packing).shape grammar filing).fullTrees lists) :
    Faithful grammar tokens nodes lists (.alternative place packing) := by
  have trees : lists (.alternative place packing) = (sequences lists (packing.parts.map ofPart)).map
      (.node packing.rule place.symbol place.span) := solves
  constructor
  · rw [trees]
    have distinct : (sequences lists (packing.parts.map ofPart)).Nodup := by
      apply nodup_sequences
      intro key inside
      obtain ⟨part, found, rfl⟩ := List.mem_map.mp inside
      exact (below part found).distinct
    exact distinct.map fun _ _ same => (Tree.node.inj same).2.2.2
  · intro tree inside
    rw [trees] at inside
    obtain ⟨others, made, rfl⟩ := List.mem_map.mp inside
    obtain ⟨node, member, rfl, rfl⟩ := filed
    have faithful : ∀ child ∈ node.children, Faithful grammar tokens nodes lists (ofPart child.part) :=
      fun child inside => below _ (List.mem_map_of_mem inside)
    obtain ⟨rule, lhs, span, children⟩ := node
    cases harvest.derives _ member with
    | application known all =>
      obtain ⟨derived, same⟩ := denotes_parts all faithful ((mem_parts _).mp made)
      exact ⟨.application known derived, others, rfl, same⟩
  · intro tree files
    obtain ⟨node, member, rfl, rfl, rfl⟩ := files
    rw [trees]
    apply List.mem_map_of_mem
    apply (mem_parts node).mpr
    apply List.forall₂_same.mpr
    intro child inside
    exact (below _ (List.mem_map_of_mem inside)).complete child (files_part harvest member inside)

/-- Along the order in which things are made, all of them get faithful trees. -/
theorem faithful_of_solves (harvest : Harvest grammar tokens nodes)
    (distinct : ∀ slot, (filing.alternatives slot).Nodup)
    (filed : filing.FiledFrom nodes) {order : List Emission} (ordered : Postordered (graph filing) order)
    (known : ∀ emission ∈ order, emission.IsFiled tokens nodes)
    (solves : ∀ emission ∈ order, lists emission = (emission.shape grammar filing).fullTrees lists) :
    ∀ emission ∈ order, Faithful grammar tokens nodes lists emission := by
  refine ordered.induction ?_
  intro emission member below
  have below : ∀ target ∈ emission.requires filing, Faithful grammar tokens nodes lists target :=
    fun target inside => below target (leads_iff.mpr inside)
  have solved := solves emission member
  cases emission with
  | leaf token =>
    have alone : lists (.leaf token) = [.leaf token] := solved
    constructor
    · exact alone ▸ List.pairwise_singleton _ _
    · exact fun tree inside => List.mem_singleton.mp (alone ▸ inside)
    · intro tree same
      obtain rfl : tree = .leaf token := same
      exact alone ▸ List.mem_cons_self
  | slot place =>
    exact faithful_slot (distinct place) filed
      (fun packing inside => below _ (List.mem_map_of_mem inside)) solved
  | alternative place packing =>
    exact faithful_alternative harvest (known _ member)
      (fun part inside => below _ (List.mem_map_of_mem inside)) solved

end Emission

def ForestNode.IsProper (grammar : Grammar) : ForestNode → Prop
  | .choice symbol span _ => (∃ rule, grammar.lhs? rule = some symbol) ∧ span.start ≤ span.stop
  | .application rule _ _ _ _ _ => ∃ symbol, grammar.lhs? rule = some symbol
  | .leaf _ _ => True

/-- A forest of some readings: they are among its trees, all trees are readings, and none comes twice. -/
structure Packs (grammar : Grammar) (tokens : Array Token) (derivations : List Derivation)
    (forest : Forest) (root : NodeId) : Prop where
  layered : forest.Layered
  arranged : forest.Arranged
  rooted : forest.root = some root
  inside : root < forest.size
  proper : ∀ id node, forest.node? id = some node → node.IsProper grammar
  widest : ∀ id < forest.size, (forest.trees id).length ≤ (forest.trees root).length
  used : ∀ id symbol span alternatives, forest.node? id = some (.choice symbol span alternatives) →
    ∀ alternative ∈ alternatives, ∃ derivation ∈ derivations, ∃ node ∈ derivation.nodes,
      node.slot = ⟨symbol, span⟩ ∧ forest.packing? alternative = some node.packing
  distinct : (forest.trees root).Nodup
  sound : ∀ tree ∈ forest.trees root,
    Derives grammar tokens (.nonTerminal grammar.start) 0 tokens.size tree
  complete : ∀ derivation ∈ derivations, derivation.tree ∈ forest.trees root

private theorem proper_shape (harvest : Harvest grammar tokens nodes) {emission : Emission}
    (filed : emission.IsFiled tokens nodes) (number : Emission → NodeId) :
    (((emission.shape grammar filing).node number).IsProper grammar) := by
  have known : ∀ node ∈ nodes, grammar.lhs? node.rule = some node.lhs ∧
      node.span.start ≤ node.span.stop := by
    intro node member
    have derived := harvest.derives node member
    refine ⟨?_, derived.le⟩
    cases derived with
    | application known _ => exact known
  cases emission with
  | leaf token => trivial
  | slot place =>
    obtain ⟨node, member, rfl⟩ := filed
    exact ⟨⟨_, (known node member).1⟩, (known node member).2⟩
  | alternative place packing =>
    obtain ⟨node, member, rfl, rfl⟩ := filed
    exact ⟨_, (known node member).1⟩

private theorem exists_order {rank : Symbol → Nat} {bound : Nat}
    (ranked : Ranked grammar.rules.toList rank bound) (harvest : Harvest grammar tokens nodes)
    (filed : filing.FiledFrom nodes) {node : Derivation} (member : node ∈ nodes) :
    ∃ walk, Walk.start.visit (Emission.graph filing) (2 * filing.slots.size + 2)
        (.slot node.slot) = .ok walk ∧
      Traverses (Emission.graph filing) [] [.slot node.slot] walk.order.toList ∧
      Postordered (Emission.graph filing) walk.order.toList ∧
      .slot node.slot ∈ walk.order.toList ∧
      (∀ emission ∈ walk.order.toList, emission.IsFiled tokens nodes) ∧
      ∀ emission ∈ walk.order.toList,
        Relation.ReflTransGen (Leads (Emission.graph filing)) (.slot node.slot) emission := by
  have graded := Emission.graded ranked harvest filed
  have start : (Emission.slot node.slot).IsFiled tokens nodes := ⟨node, member, rfl⟩
  have few : lighter (Slot.weight rank) filing.slots.keys node.slot < filing.slots.size := by
    rw [← Std.HashMap.length_keys]
    exact lighter_lt_length (Filing.mem_keys ((filed _ _).mpr ⟨node, member, rfl, rfl⟩))
  have enough : (Emission.slot node.slot).height rank filing < 2 * filing.slots.size + 2 := by
    simp only [Emission.height]
    omega
  obtain ⟨walk, walked, reaches⟩ := Walk.visit_reaches graded _ start enough
  refine ⟨walk, walked, Walk.visits_of_visit walked, reaches.sorted.postordered,
    reaches.covers List.mem_cons_self, reaches.stays graded (List.forall_mem_singleton.mpr start), ?_⟩
  intro emission inside
  obtain ⟨goal, only, path⟩ := reaches.only inside
  exact List.mem_singleton.mp only ▸ path

theorem Emission.packing?_alternative (place : Slot) (packing : Packing) :
    ((Emission.alternative place packing).shape grammar filing).packing?
      (Emission.shape grammar filing) = some packing := by
  have parts : (packing.parts.map Emission.ofPart).map (fun child => (child.shape grammar filing).part) =
      packing.parts := by
    rw [List.map_map]
    exact List.map_id'' (fun part => by cases part <;> rfl) _
  change some (Packing.mk packing.rule _) = some packing
  rw [parts]

theorem slot_of_choice {emission : Emission} {symbol : Symbol} {span : TokenSpan}
    {keys : List Emission} (same : emission.shape grammar filing = .choice symbol span keys) :
    emission = .slot ⟨symbol, span⟩ ∧
      keys = (filing.alternatives ⟨symbol, span⟩).map (.alternative ⟨symbol, span⟩) := by
  cases emission with
  | leaf token => cases same
  | alternative place packing => cases same
  | slot place =>
    obtain ⟨rfl, rfl, rfl⟩ := Shape.choice.inj same
    exact ⟨rfl, rfl⟩

variable (grammar) in
private theorem arranged_emissions (filed : filing.FiledFrom nodes)
    (distinct : ∀ slot, (filing.alternatives slot).Nodup) {order : List Emission}
    (ordered : Postordered (Emission.graph filing) order)
    (known : ∀ emission ∈ order, emission.IsFiled tokens nodes) :
    Shape.Arranged (Emission.shape grammar filing) order := by
  refine ⟨⟨?_, ?_, ?_⟩, ?_⟩
  · intro emission member target inside
    rw [Emission.targets_shape] at inside
    exact ordered.closed member (Emission.leads_iff.mpr inside)
  · intro emission member symbol span same
    obtain ⟨rfl, none⟩ := slot_of_choice same
    obtain ⟨node, inside, slot⟩ := known _ member
    have listed := (filed _ _).mpr ⟨node, inside, slot, rfl⟩
    rw [List.map_eq_nil_iff.mp none.symm] at listed
    exact absurd listed List.not_mem_nil
  · intro emission member symbol span alternatives same alternative inside
    obtain ⟨rfl, rfl⟩ := slot_of_choice same
    obtain ⟨packing, -, rfl⟩ := List.mem_map.mp inside
    exact ⟨_, _, _, _, rfl⟩
  · intro emission member symbol span alternatives same
    obtain ⟨rfl, rfl⟩ := slot_of_choice same
    rw [List.map_map]
    apply (distinct ⟨symbol, span⟩).map
    intro packing other equal
    simpa only [Function.comp_apply, Emission.packing?_alternative, Option.some.injEq] using equal

private theorem ofDerivations_eq (bound : tokens.size < countBound)
    (harvest : Harvest grammar tokens nodes) {first : Derivation} {rest : List Derivation}
    {walk : Walk Emission}
    (walked : Walk.start.visit (Emission.graph (Filing.ofDerivations (first :: rest)))
      (2 * (Filing.ofDerivations (first :: rest)).slots.size + 2) (.slot first.slot) = .ok walk)
    (known : ∀ emission ∈ walk.order.toList, emission.IsFiled tokens nodes) :
    Forest.ofDerivations grammar (first :: rest) tokens.size =
      .ok (Forest.laidOut (Emission.shape grammar (Filing.ofDerivations (first :: rest)))
        (.slot first.slot) walk.order.toList tokens.size) := by
  have emitted : walk.order.foldlM (Emission.emit grammar (Filing.ofDerivations (first :: rest)))
      Arena.empty = .ok (Arena.laidOut
        (Emission.shape grammar (Filing.ofDerivations (first :: rest))) walk.order.toList) := by
    rw [← Array.foldlM_toList]
    exact foldlM_ok _ fun emission member => Emission.emit_eq bound harvest (known emission member)
  have visited : Walk.start.visit
      (fun emission => some (emission.requires (Filing.ofDerivations (first :: rest))))
      (2 * (Filing.ofDerivations (first :: rest)).slots.size + 2)
      (.slot ⟨first.lhs, first.span⟩) = .ok walk := walked
  simp only [Forest.ofDerivations]
  rw [visited]
  simp only [emitted]
  rfl

private theorem filed_of_choice (filed : filing.FiledFrom nodes) {order : List Emission}
    {arena : Arena Emission} (laid : arena.Laid (Emission.shape grammar filing) order)
    (arranged : Shape.Arranged (Emission.shape grammar filing) order) (root : Option NodeId)
    (tokenCount : Nat) {id : NodeId} {symbol : Symbol} {span : TokenSpan} {alternatives : List NodeId}
    (found : (arena.forest root tokenCount).node? id = some (.choice symbol span alternatives))
    {alternative : NodeId} (member : alternative ∈ alternatives) :
    ∃ node ∈ nodes, node.slot = ⟨symbol, span⟩ ∧
      (arena.forest root tokenCount).packing? alternative = some node.packing := by
  obtain ⟨emission, inside, keys, same, -, rfl⟩ := laid.exists_choice root tokenCount found
  obtain ⟨key, chosen, rfl⟩ := List.mem_map.mp member
  have there : key ∈ order := arranged.closed emission inside (by rw [same]; exact chosen)
  obtain ⟨rfl, rfl⟩ := slot_of_choice same
  obtain ⟨packing, listed, rfl⟩ := List.mem_map.mp chosen
  obtain ⟨node, known, slot, rfl⟩ := (filed _ packing).mp listed
  refine ⟨node, known, slot, ?_⟩
  rw [laid.packing?_number arranged root tokenCount there rfl, Emission.packing?_alternative]

theorem slot_of_reading {derivation : Derivation} (reading : IsReading grammar tokens derivation) :
    derivation.slot = ⟨grammar.start, ⟨0, tokens.size⟩⟩ := by
  obtain ⟨rule, lhs, span, children⟩ := derivation
  cases reading
  rfl

def Emission.whole (grammar : Grammar) (tokens : Array Token) : Emission :=
  .slot ⟨grammar.start, ⟨0, tokens.size⟩⟩

/-- How a forest of some readings is made: everything that their place waits for, in some order. -/
structure Layout (grammar : Grammar) (tokens : Array Token) (derivations : List Derivation)
    (order : List Emission) (arena : Arena Emission) : Prop where
  made : Arena.laidOut (Emission.shape grammar (Filing.ofDerivations derivations)) order = arena
  visits : Traverses (Emission.graph (Filing.ofDerivations derivations)) []
    [Emission.whole grammar tokens] order
  ordered : Postordered (Emission.graph (Filing.ofDerivations derivations)) order
  known : ∀ emission ∈ order, emission.IsFiled tokens (derivations.flatMap Derivation.nodes)
  start : Emission.whole grammar tokens ∈ order
  paths : ∀ emission ∈ order, Relation.ReflTransGen
    (Leads (Emission.graph (Filing.ofDerivations derivations))) (Emission.whole grammar tokens) emission
  arranged : Shape.Arranged (Emission.shape grammar (Filing.ofDerivations derivations)) order
  laid : arena.Laid (Emission.shape grammar (Filing.ofDerivations derivations)) order

theorem exists_layout (acyclic : unitCycle? grammar.rules.toList = none)
    (bound : tokens.size < countBound) {derivations : List Derivation} (some : derivations ≠ [])
    (readings : ∀ derivation ∈ derivations, IsReading grammar tokens derivation) :
    ∃ order arena, Layout grammar tokens derivations order arena ∧
      Forest.ofDerivations grammar derivations tokens.size =
        .ok (arena.forest (arena.number (Emission.whole grammar tokens)) tokens.size) := by
  obtain ⟨rank, limit, ranked⟩ := exists_ranked acyclic
  obtain ⟨first, rest, rfl⟩ := List.exists_cons_of_ne_nil some
  have harvest := harvest_readings readings
  have filed := Filing.filedFrom_ofDerivations (first :: rest)
  have distinct : ∀ slot, ((Filing.ofDerivations (first :: rest)).alternatives slot).Nodup :=
    (Filing.files_foldl Filing.files_empty).distinct
  have own : first ∈ (first :: rest).flatMap Derivation.nodes :=
    List.mem_flatMap.mpr ⟨first, List.mem_cons_self, List.mem_cons_self⟩
  have whole : Emission.slot first.slot = Emission.whole grammar tokens := by
    rw [slot_of_reading (readings first List.mem_cons_self), Emission.whole]
  obtain ⟨walk, walked, visits, ordered, start, known, paths⟩ := exists_order ranked harvest filed own
  have targets := fun emission (_ : emission ∈ walk.order.toList) =>
    Emission.graph_eq grammar (Filing.ofDerivations (first :: rest)) emission
  have arranged := arranged_emissions grammar filed distinct ordered known
  have laid := Arena.laid_laidOut ordered targets arranged.chosen
  have packed := ofDerivations_eq bound harvest walked known
  rw [whole] at visits start paths packed
  exact ⟨_, _, ⟨rfl, visits, ordered, known, start, paths, arranged, laid⟩, packed⟩

theorem exists_packed (acyclic : unitCycle? grammar.rules.toList = none)
    (bound : tokens.size < countBound) {derivations : List Derivation} (some : derivations ≠ [])
    (readings : ∀ derivation ∈ derivations, IsReading grammar tokens derivation) :
    ∃ forest root, Forest.ofDerivations grammar derivations tokens.size = .ok forest ∧
      Packs grammar tokens derivations forest root := by
  obtain ⟨order, arena, layout, made⟩ := exists_layout acyclic bound some readings
  have harvest := harvest_readings readings
  have filed := Filing.filedFrom_ofDerivations derivations
  have distinct : ∀ slot, ((Filing.ofDerivations derivations).alternatives slot).Nodup :=
    (Filing.files_foldl Filing.files_empty).distinct
  have laid := layout.laid
  have faithful := Emission.faithful_of_solves harvest distinct filed layout.ordered layout.known
    (fun emission member =>
      laid.trees_eq (arena.number (Emission.whole grammar tokens)) tokens.size member)
    _ layout.start
  refine ⟨_, arena.number (Emission.whole grammar tokens), made, laid.layered_forest _ _,
    laid.arranged_forest layout.arranged _ _, rfl, laid.placed _ layout.start, ?_, ?_, ?_,
    faithful.distinct, ?_, ?_⟩
  · intro id node found
    obtain ⟨emission, member, -, rfl⟩ := laid.made found
    exact proper_shape harvest (layout.known emission member) _
  · intro id inside
    obtain ⟨emission, member, -, rfl⟩ := laid.keyed id inside
    exact laid.length_le_goal _ _ layout.ordered (fun emission _ => Emission.graph_eq grammar _ emission)
      layout.start (layout.paths emission member)
  · intro id symbol span alternatives found alternative member
    obtain ⟨node, inside, same⟩ := filed_of_choice filed laid layout.arranged _ _ found member
    obtain ⟨derivation, known, below⟩ := List.mem_flatMap.mp inside
    exact ⟨derivation, known, node, below, same⟩
  · exact fun tree member => faithful.sound tree member
  · intro derivation member
    refine faithful.complete _ ⟨derivation, ?_, slot_of_reading (readings derivation member), rfl⟩
    exact List.mem_flatMap.mpr ⟨derivation, member, List.mem_cons_self⟩

end Readings
