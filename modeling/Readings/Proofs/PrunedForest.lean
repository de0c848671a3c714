import Readings.Forest.Prune
import Readings.Proofs.ArrangedForest
import Readings.Proofs.WalkOrder
import Mathlib.Data.List.Find

/-! Pruned forests. Pruning lays out anew what is left of the nodes, so a layered forest is pruned to a
layered one. Every choice keeps at least one alternative, and at every node the trees that are left are
some of those that were there, in their order. -/

namespace Readings

theorem pairs_sublist {α β γ : Type} {combine : α → β → γ} {firsts others : List α}
    {seconds rest : List β} (left : firsts.Sublist others) (right : seconds.Sublist rest) :
    (pairs combine firsts seconds).Sublist (pairs combine others rest) :=
  (List.Sublist.flatMap_right firsts fun _ _ => right.map _).trans (left.flatMap _)

theorem sequences_sublist {κ α : Type} {lists others : κ → List α} {keys : List κ}
    (below : ∀ key ∈ keys, (lists key).Sublist (others key)) :
    (sequences lists keys).Sublist (sequences others keys) := by
  induction keys using List.reverseRecOn with
  | nil => exact List.Sublist.refl _
  | append_singleton keys key ih =>
    rw [sequences_concat, sequences_concat]
    exact pairs_sublist (ih fun other member => below other (List.mem_append_left _ member))
      (below key (List.mem_append_right _ List.mem_cons_self))

def highest? {α : Type} (priority : α → Int) (items : List α) : Option α :=
  items.find? fun item => items.all fun other => decide (priority other ≤ priority item)

/-- The items whose priority reaches a threshold or, if there are none, the first of the highest. -/
def survivorsBy {α : Type} (priority : α → Int) (threshold : Int) (items : List α) : List α :=
  let kept := items.filter fun item => decide (threshold ≤ priority item)
  if kept.isEmpty then (highest? priority items).toList else kept

section Survivors
variable {α β : Type} {priority : α → Int} {threshold : Int} {items : List α} {item known : α}

private def better (priority : α → Int) (best : Option α) (item : α) : Option α :=
  match best with
  | none => some item
  | some known => if priority known < priority item then some item else best

private theorem highest?_concat (found : highest? priority items = some known) :
    highest? priority (items ++ [item]) = better priority (some known) item := by
  have most : ∀ other ∈ items, priority other ≤ priority known := by
    simpa only [List.all_eq_true, decide_eq_true_eq] using List.find?_some found
  rw [highest?, List.find?_append, better]
  simp only [List.all_append, List.all_cons, List.all_nil, Bool.and_true]
  by_cases higher : priority known < priority item
  · have none : items.find? (fun other => (items.all fun another =>
        decide (priority another ≤ priority other)) && decide (priority item ≤ priority other)) = none := by
      apply List.find?_eq_none.mpr
      intro other member
      have below := most other member
      simp only [Bool.and_eq_true, decide_eq_true_eq, not_and]
      omega
    have all : ∀ other ∈ items, priority other ≤ priority item := fun other member =>
      Int.le_trans (most other member) (Int.le_of_lt higher)
    rw [none, if_pos higher]
    simpa using all
  · have same : items.find? (fun other => (items.all fun another =>
        decide (priority another ≤ priority other)) && decide (priority item ≤ priority other)) =
        some known := by
      refine Eq.trans (List.find?_congr ?_) found
      intro other member
      simp only [Bool.and_eq_left_iff_imp, List.all_eq_true, decide_eq_true_eq]
      intro all
      exact Int.le_trans (Int.not_lt.mp higher) (all known (List.mem_of_find?_eq_some found))
    rw [same, if_neg higher]
    rfl

private theorem foldl_better (priority : α → Int) (items : List α) :
    items.foldl (better priority) none = highest? priority items ∧
      (highest? priority items = none → items = []) := by
  induction items using List.reverseRecOn with
  | nil => exact ⟨rfl, fun _ => rfl⟩
  | append_singleton items item ih =>
    rw [List.foldl_append, List.foldl_cons, List.foldl_nil, ih.1]
    cases found : highest? priority items with
    | none =>
      rw [ih.2 found]
      simp [highest?, better]
    | some known =>
      rw [highest?_concat found]
      refine ⟨rfl, ?_⟩
      rw [better]
      split <;> exact nofun

theorem eq_nil_of_highest? (none : highest? priority items = none) : items = [] :=
  (foldl_better priority items).2 none

private theorem highest?_map {image : α → β} {other : β → Int}
    (same : ∀ item ∈ items, other (image item) = priority item) :
    highest? other (items.map image) = (highest? priority items).map image := by
  rw [highest?, highest?, List.find?_map]
  refine congrArg _ (List.find?_congr ?_)
  intro item member
  rw [Bool.eq_iff_iff]
  simp only [Function.comp_apply, List.all_map, List.all_eq_true, decide_eq_true_eq, same item member]
  exact forall₂_congr fun another inside => by rw [same another inside]

theorem survivorsBy_sublist : (survivorsBy priority threshold items).Sublist items := by
  simp only [survivorsBy]
  split
  next =>
    cases highest : highest? priority items with
    | none => exact List.nil_sublist _
    | some winner => exact List.singleton_sublist.mpr (List.mem_of_find?_eq_some highest)
  next => exact List.filter_sublist

theorem survivorsBy_ne_nil (some : items ≠ []) : survivorsBy priority threshold items ≠ [] := by
  simp only [survivorsBy]
  split
  next =>
    cases highest : highest? priority items with
    | none => exact absurd (eq_nil_of_highest? highest) some
    | some winner => exact List.cons_ne_nil _ _
  next kept => exact fun none => kept (List.isEmpty_iff.mpr none)

theorem survivorsBy_singleton (item : α) : survivorsBy priority threshold [item] = [item] := by
  have fewer : (survivorsBy priority threshold [item]).Sublist [item] := survivorsBy_sublist
  exact (List.sublist_singleton.mp fewer).resolve_left (survivorsBy_ne_nil (List.cons_ne_nil _ _))

theorem survivorsBy_map {image : α → β} {other : β → Int}
    (same : ∀ item ∈ items, other (image item) = priority item) :
    survivorsBy other threshold (items.map image) = (survivorsBy priority threshold items).map image := by
  have kept : (items.map image).filter (fun item => decide (threshold ≤ other item)) =
      (items.filter fun item => decide (threshold ≤ priority item)).map image := by
    rw [List.filter_map]
    exact congrArg _ (List.filter_congr fun item member => by simp [same item member])
  simp only [survivorsBy, kept, List.isEmpty_map, highest?_map same]
  split
  next => cases highest? priority items <;> rfl
  next => rfl

theorem survivorsBy_eq_self (all : ∀ item ∈ items, threshold ≤ priority item) :
    survivorsBy priority threshold items = items := by
  have kept : items.filter (fun item => decide (threshold ≤ priority item)) = items :=
    List.filter_eq_self.mpr fun item member => decide_eq_true (all item member)
  rw [survivorsBy, kept]
  split
  next none => rw [List.isEmpty_iff.mp none, highest?, List.find?_nil, Option.toList_none]
  next => rfl

/-- If several survive, then none of them for being the first of the highest. -/
theorem reaches_of_survivorsBy (several : 2 ≤ (survivorsBy priority threshold items).length)
    (member : item ∈ survivorsBy priority threshold items) : threshold ≤ priority item := by
  simp only [survivorsBy] at several member
  split at several
  next =>
    cases highest : highest? priority items <;> simp [highest] at several
  next kept =>
    rw [if_neg kept] at member
    exact of_decide_eq_true (List.mem_filter.mp member).2

/-- The highest of all is the highest of those that reach a threshold, if any do. -/
private theorem highest?_filter (kept : items.filter (fun item => decide (threshold ≤ priority item)) ≠ []) :
    highest? priority (items.filter fun item => decide (threshold ≤ priority item)) =
      highest? priority items := by
  obtain ⟨known, reaches⟩ := List.exists_mem_of_ne_nil _ kept
  rw [highest?, highest?, List.find?_filter]
  apply List.find?_congr
  intro item member
  rw [Bool.eq_iff_iff]
  simp only [List.all_eq_true, decide_eq_true_eq, List.mem_filter, and_imp] at reaches ⊢
  constructor
  · intro highest other inside
    by_cases high : threshold ≤ priority other
    · exact highest.2 other inside high
    · omega
  · intro highest
    have above := highest known reaches.1
    exact ⟨Int.le_trans reaches.2 above, fun other inside _ => highest other inside⟩

theorem survivorsBy_survivorsBy (first second : Int) :
    survivorsBy priority second (survivorsBy priority first items) =
      survivorsBy priority (max first second) items := by
  have both : (items.filter fun item => decide (first ≤ priority item)).filter
      (fun item => decide (second ≤ priority item)) =
      items.filter fun item => decide (max first second ≤ priority item) := by
    rw [List.filter_filter]
    apply List.filter_congr
    intro item _
    rw [Bool.eq_iff_iff, Bool.and_eq_true, decide_eq_true_eq, decide_eq_true_eq, decide_eq_true_eq]
    omega
  by_cases kept : items.filter (fun item => decide (first ≤ priority item)) = []
  · have none := both
    rw [kept, List.filter_nil] at none
    simp only [survivorsBy, kept, ← none, List.isEmpty_nil, if_true]
    cases highest? priority items with
    | none => rfl
    | some winner => exact survivorsBy_singleton winner
  · have inner : survivorsBy priority first items =
        items.filter fun item => decide (first ≤ priority item) := by
      rw [survivorsBy, if_neg (mt List.isEmpty_iff.mp kept)]
    rw [inner, survivorsBy, survivorsBy, both, highest?_filter kept]

end Survivors

namespace Forest

variable {forest : Forest} {threshold : Int}

theorem survivors_eq (forest : Forest) (threshold : Int) (alternatives : List NodeId) :
    forest.survivors threshold alternatives = survivorsBy forest.priorityOf threshold alternatives := by
  have best : forest.best? alternatives = highest? forest.priorityOf alternatives := by
    rw [← (foldl_better forest.priorityOf alternatives).1, best?]
    congr
    funext best id
    cases best <;> rfl
  rw [survivors, survivorsBy, best]

theorem survivors_spec (alternatives : List NodeId) :
    (forest.survivors threshold alternatives).Sublist alternatives ∧
      (alternatives ≠ [] → forest.survivors threshold alternatives ≠ []) := by
  rw [survivors_eq]
  exact ⟨survivorsBy_sublist, survivorsBy_ne_nil⟩

def remains (forest : Forest) (threshold : Int) : ForestNode → Shape NodeId
  | .leaf token span => .leaf token span
  | .choice symbol span alternatives => .choice symbol span (forest.survivors threshold alternatives)
  | .application rule symbol span children priority action =>
    .application rule symbol span children priority action

/-- What is left of the node with a number; of one that is not there, a token that is not there. -/
def remainsAt (forest : Forest) (threshold : Int) (id : NodeId) : Shape NodeId :=
  ((forest.node? id).map (forest.remains threshold)).getD (.leaf 0 ⟨0, 0⟩)

theorem remainsAt_of_found {id : NodeId} {node : ForestNode} (found : forest.node? id = some node) :
    forest.remainsAt threshold id = forest.remains threshold node := by
  rw [remainsAt, found]
  rfl

theorem priority?_remainsAt (threshold : Int) (id : NodeId) :
    ((forest.remainsAt threshold id).priority?).getD priorityMin = forest.priorityOf id := by
  cases found : forest.node? id with
  | none =>
    rw [remainsAt, priorityOf, found]
    rfl
  | some node =>
    rw [remainsAt_of_found found, priorityOf, found]
    cases node <;> rfl

theorem span_remains (node : ForestNode) : (forest.remains threshold node).span = node.span := by
  cases node <;> rfl

theorem targets_remains (node : ForestNode) :
    (forest.remains threshold node).targets = forest.survivingSuccessors threshold node := by
  cases node <;> rfl

/-- Rebuilding a node is laying out what is left of it. -/
theorem rebuild_eq {id : NodeId} {node : ForestNode} (found : forest.node? id = some node)
    (arena : Arena NodeId) :
    forest.rebuild threshold arena id = arena.lay (forest.remainsAt threshold) id := by
  cases node with
  | leaf token span => simp only [rebuild, found, Arena.lay, remainsAt_of_found found, remains]; rfl
  | application rule symbol span children priority action =>
    simp only [rebuild, found, Arena.lay, remainsAt_of_found found, remains]; rfl
  | choice symbol span alternatives =>
    simp only [rebuild, found, Arena.lay, remainsAt_of_found found, remains]
    cases forest.survivors threshold alternatives with
    | nil => rfl
    | cons first rest => cases rest <;> rfl

def survivingGraph (forest : Forest) (threshold : Int) (id : NodeId) : Option (List NodeId) :=
  (forest.node? id).map (forest.survivingSuccessors threshold)

theorem survivingSuccessors_sublist (node : ForestNode) :
    (forest.survivingSuccessors threshold node).Sublist node.successors := by
  cases node with
  | choice symbol span alternatives => exact (survivors_spec alternatives).1
  | leaf => exact List.Sublist.refl _
  | application => exact List.Sublist.refl _

theorem Layered.surviving_graded (layered : forest.Layered) (threshold : Int) :
    Graded (forest.survivingGraph threshold) (· < forest.size) id := by
  constructor
  intro vertex inside
  obtain ⟨node, found⟩ := node?_isSome_iff.mpr inside
  refine ⟨forest.survivingSuccessors threshold node, by simp [survivingGraph, found], ?_⟩
  intro child member
  have earlier := layered.earlier vertex node found child
    ((survivingSuccessors_sublist node).subset member)
  exact ⟨Nat.lt_trans earlier inside, earlier⟩

/-- The trees of a node that take, at every choice, an alternative that survives. -/
def survivingTrees (forest : Forest) (threshold : Int) (id : NodeId) : List Tree :=
  match forest.node? id with
  | none => []
  | some node => (forest.remains threshold node).fullTrees fun child =>
      if child < id then forest.survivingTrees threshold child else []
termination_by id

theorem Layered.survivingTrees_eq (layered : forest.Layered) {id : NodeId} {node : ForestNode}
    (found : forest.node? id = some node) :
    forest.survivingTrees threshold id =
      (forest.remains threshold node).fullTrees (forest.survivingTrees threshold) := by
  rw [survivingTrees, found]
  apply Shape.fullTrees_congr
  intro child member
  rw [targets_remains] at member
  exact if_pos (layered.earlier id node found child ((survivingSuccessors_sublist node).subset member))

theorem Layered.mem_survivingTrees_application (layered : forest.Layered) {id : NodeId} {rule : RuleId}
    {symbol : Symbol} {span : TokenSpan} {children : List NodeId} {priority : Int} {action : Option String}
    (found : forest.node? id = some (.application rule symbol span children priority action)) {tree : Tree} :
    tree ∈ forest.survivingTrees threshold id ↔ ∃ trees, tree = .node rule symbol span trees ∧
      List.Forall₂ (fun tree child => tree ∈ forest.survivingTrees threshold child) trees children := by
  simp only [layered.survivingTrees_eq found, remains, Shape.fullTrees, List.mem_map, mem_sequences]
  constructor
  · rintro ⟨trees, made, same⟩
    exact ⟨trees, same.symm, made⟩
  · rintro ⟨trees, same, made⟩
    exact ⟨trees, made, same.symm⟩

theorem Layered.mem_survivingTrees_choice (layered : forest.Layered) {id : NodeId} {symbol : Symbol}
    {span : TokenSpan} {alternatives : List NodeId}
    (found : forest.node? id = some (.choice symbol span alternatives)) {tree : Tree} :
    tree ∈ forest.survivingTrees threshold id ↔
      ∃ alternative ∈ forest.survivors threshold alternatives,
        tree ∈ forest.survivingTrees threshold alternative := by
  simp only [layered.survivingTrees_eq found, remains, Shape.fullTrees, List.mem_flatMap]

private theorem fullTrees_sublist {lists : NodeId → List Tree} {node : ForestNode}
    (below : ∀ child ∈ forest.survivingSuccessors threshold node,
      (lists child).Sublist (forest.trees child)) :
    ((forest.remains threshold node).fullTrees lists).Sublist (node.fullTrees forest.trees) := by
  cases node with
  | leaf token span => exact List.Sublist.refl _
  | choice symbol span alternatives =>
    exact (List.Sublist.flatMap_right _ below).trans ((survivors_spec alternatives).1.flatMap _)
  | application rule symbol span children priority action => exact (sequences_sublist below).map _

theorem Layered.survivingTrees_sublist (layered : forest.Layered) (threshold : Int) (id : NodeId) :
    (forest.survivingTrees threshold id).Sublist (forest.trees id) := by
  induction id using Nat.strongRecOn with
  | ind id ih =>
    cases found : forest.node? id with
    | none =>
      rw [survivingTrees, found]
      exact List.nil_sublist _
    | some node =>
      rw [layered.survivingTrees_eq found, layered.trees_eq found]
      apply fullTrees_sublist
      intro child survives
      exact ih child (layered.earlier id node found child
        ((survivingSuccessors_sublist node).subset survives))

/-- A pruned forest against the one that it was pruned from. -/
structure Prunes (forest : Forest) (root : NodeId) (threshold : Int) (pruned : Forest)
    (top : NodeId) : Prop where
  layered : pruned.Layered
  arranged : pruned.Arranged
  rooted : pruned.root = some top
  inside : top < pruned.size
  widest : ∀ id < pruned.size, (pruned.trees id).length ≤ (pruned.trees top).length
  trees : pruned.trees top = forest.survivingTrees threshold root
  made : ∀ id node, pruned.node? id = some node → ∃ (number : NodeId → NodeId) (source : NodeId)
    (old : ForestNode), forest.node? source = some old ∧
      node = (forest.remains threshold old).node number

theorem Prunes.sublist {root top : NodeId} {pruned : Forest}
    (prunes : Prunes forest root threshold pruned top) (layered : forest.Layered) :
    (pruned.trees top).Sublist (forest.trees root) :=
  prunes.trees ▸ layered.survivingTrees_sublist threshold root

theorem survivingGraph_eq {id : NodeId} (inside : id < forest.size) (threshold : Int) :
    forest.survivingGraph threshold id = some (forest.remainsAt threshold id).targets := by
  obtain ⟨node, found⟩ := node?_isSome_iff.mpr inside
  rw [remainsAt_of_found found, targets_remains, survivingGraph, found]
  rfl

theorem node?_of_remainsAt {id : NodeId} (inside : id < forest.size) {symbol : Symbol}
    {span : TokenSpan} {kept : List NodeId} (same : forest.remainsAt threshold id = .choice symbol span kept) :
    ∃ alternatives, forest.node? id = some (.choice symbol span alternatives) ∧
      kept = forest.survivors threshold alternatives := by
  obtain ⟨node, found⟩ := node?_isSome_iff.mpr inside
  rw [remainsAt_of_found found] at same
  cases node with
  | leaf => cases same
  | application => cases same
  | choice symbol span alternatives =>
    obtain ⟨rfl, rfl, rfl⟩ := Shape.choice.inj same
    exact ⟨alternatives, found, rfl⟩

/-- What is needed of a forest without some alternatives: the nodes that a walk from the root leaves. -/
structure LeftOver (forest : Forest) (threshold : Int) (root : NodeId) (order : List NodeId) : Prop where
  visits : Traverses (forest.survivingGraph threshold) [] [root] order
  ordered : Postordered (forest.survivingGraph threshold) order
  inside : ∀ id ∈ order, id < forest.size
  start : root ∈ order
  paths : ∀ id ∈ order, Relation.ReflTransGen (Leads (forest.survivingGraph threshold)) root id

namespace LeftOver

variable {root : NodeId} {order : List NodeId} (left : LeftOver forest threshold root order)
include left

theorem targets : ∀ id ∈ order,
    forest.survivingGraph threshold id = some (forest.remainsAt threshold id).targets :=
  fun id member => survivingGraph_eq (left.inside id member) threshold

theorem chosen (layered : forest.Layered) :
    ∀ id ∈ order, ∀ symbol span, forest.remainsAt threshold id ≠ .choice symbol span [] := by
  intro id member symbol span same
  obtain ⟨alternatives, found, none⟩ := node?_of_remainsAt (left.inside id member) same
  exact (survivors_spec alternatives).2 (layered.chosen id _ _ _ found) none.symm

theorem laid (layered : forest.Layered) :
    (Arena.laidOut (forest.remainsAt threshold) order).Laid (forest.remainsAt threshold) order :=
  Arena.laid_laidOut left.ordered left.targets (left.chosen layered)

theorem settled (layered : forest.Layered) (applied : ∀ id symbol span alternatives,
    forest.node? id = some (.choice symbol span alternatives) → ∀ alternative ∈ alternatives,
      ∃ node, forest.node? alternative = some node ∧ node.Applies symbol span) :
    Shape.Settled (forest.remainsAt threshold) order := by
  refine ⟨?_, left.chosen layered, ?_⟩
  · exact fun id member target leads => left.ordered.closed member ⟨_, left.targets id member, leads⟩
  · intro id member symbol span kept same alternative survives
    obtain ⟨alternatives, found, rfl⟩ := node?_of_remainsAt (left.inside id member) same
    obtain ⟨node, there, rule, children, priority, action, rfl⟩ :=
      applied id _ _ _ found alternative ((survivors_spec alternatives).1.subset survives)
    exact ⟨rule, children, priority, action, remainsAt_of_found there⟩

end LeftOver

theorem Layered.exists_leftOver (layered : forest.Layered) {root : NodeId}
    (rooted : forest.root = some root) (inside : root < forest.size) (threshold : Int) :
    ∃ order, LeftOver forest threshold root order ∧
      forest.pruned threshold =
        .ok (laidOut (forest.remainsAt threshold) root order forest.tokenCount) := by
  have graded := layered.surviving_graded threshold
  obtain ⟨walk, walked, reaches⟩ :=
    Walk.visit_reaches graded (forest.size + 1) inside (Nat.lt_succ_of_lt inside)
  have within : ∀ id ∈ walk.order.toList, id < forest.size :=
    reaches.stays graded (List.forall_mem_singleton.mpr inside)
  refine ⟨walk.order.toList, ⟨Walk.visits_of_visit walked, reaches.sorted.postordered, within,
    reaches.covers List.mem_cons_self, ?_⟩, ?_⟩
  · intro id member
    obtain ⟨goal, only, path⟩ := reaches.only member
    exact List.mem_singleton.mp only ▸ path
  · have rebuilt : walk.order.toList.foldl (forest.rebuild threshold) Arena.empty =
        Arena.laidOut (forest.remainsAt threshold) walk.order.toList := by
      apply List.foldl_ext
      intro arena id member
      obtain ⟨node, found⟩ := node?_isSome_iff.mpr (within id member)
      exact rebuild_eq found arena
    have visited : Walk.start.visit
        (fun id => (forest.node? id).map (forest.survivingSuccessors threshold)) (forest.size + 1) root =
        .ok walk := walked
    simp only [pruned, rooted, visited, ← Array.foldl_toList, rebuilt]
    rfl

private theorem part?_eq {id : NodeId} (inside : id < forest.size) :
    forest.part? id = some (forest.remainsAt threshold id).part := by
  obtain ⟨node, found⟩ := node?_isSome_iff.mpr inside
  rw [part?, found, remainsAt_of_found found, Option.map_some]
  cases node <;> rfl

private theorem packing?_eq (layered : forest.Layered) {id : NodeId} {symbol : Symbol} {span : TokenSpan}
    {node : ForestNode} (found : forest.node? id = some node) (applies : node.Applies symbol span) :
    (forest.remainsAt threshold id).packing? (forest.remainsAt threshold) = forest.packing? id := by
  obtain ⟨rule, children, priority, action, rfl⟩ := applies
  rw [remainsAt_of_found found]
  have inside := node?_isSome_iff.mp ⟨_, found⟩
  have parts : children.filterMap forest.part? =
      children.map fun child => (forest.remainsAt threshold child).part := by
    rw [← List.filterMap_eq_map]
    apply List.filterMap_congr
    intro child member
    exact part?_eq (Nat.lt_trans (layered.earlier id _ found child member) inside)
  simp only [packing?, found, parts]
  rfl

section
variable {root : NodeId} {order : List NodeId} (left : LeftOver forest threshold root order)
include left

private theorem LeftOver.arranged (arranged : forest.Arranged) :
    Shape.Arranged (forest.remainsAt threshold) order := by
  refine ⟨left.settled arranged.layered arranged.applied, ?_⟩
  intro id member symbol span kept same
  obtain ⟨alternatives, found, rfl⟩ := node?_of_remainsAt (left.inside id member) same
  have sublist : (forest.survivors threshold alternatives).Sublist alternatives :=
    (survivors_spec alternatives).1
  have packings : (forest.survivors threshold alternatives).map (fun alternative =>
      (forest.remainsAt threshold alternative).packing? (forest.remainsAt threshold)) =
      (forest.survivors threshold alternatives).map forest.packing? := by
    apply List.map_congr_left
    intro alternative survives
    obtain ⟨node, there, applies⟩ :=
      arranged.applied id _ _ _ found alternative (sublist.subset survives)
    exact packing?_eq arranged.layered there applies
  rw [packings]
  exact List.Nodup.sublist (sublist.map _) (arranged.distinct id _ _ _ found)

/-- The trees that are left of a node stand at its number. -/
theorem LeftOver.trees_number (layered : forest.Layered) (goal : Option NodeId) (tokenCount : Nat) :
    ∀ id ∈ order,
      ((Arena.laidOut (forest.remainsAt threshold) order).forest goal tokenCount).trees
        ((Arena.laidOut (forest.remainsAt threshold) order).number id) =
      forest.survivingTrees threshold id := by
  refine left.ordered.induction ?_
  intro id member below
  obtain ⟨node, found⟩ := node?_isSome_iff.mpr (left.inside id member)
  rw [(left.laid layered).trees_eq goal tokenCount member, remainsAt_of_found found,
    layered.survivingTrees_eq found]
  apply Shape.fullTrees_congr
  intro child survives
  rw [targets_remains] at survives
  exact below child ⟨_, by rw [survivingGraph, found]; rfl, survives⟩

end

theorem Arranged.exists_pruned (arranged : forest.Arranged) {root : NodeId}
    (rooted : forest.root = some root) (inside : root < forest.size) (threshold : Int) :
    ∃ pruned top, forest.pruned threshold = .ok pruned ∧ Prunes forest root threshold pruned top := by
  have layered := arranged.layered
  obtain ⟨order, left, same⟩ := layered.exists_leftOver rooted inside threshold
  have laid := left.laid layered
  refine ⟨_, (Arena.laidOut (forest.remainsAt threshold) order).number root, same,
    laid.layered_forest _ _, laid.arranged_forest (left.arranged arranged) _ _, rfl,
    laid.placed root left.start, ?_, left.trees_number layered _ _ root left.start, ?_⟩
  · intro id small
    obtain ⟨source, member, -, rfl⟩ := laid.keyed id small
    exact laid.length_le_goal _ _ left.ordered left.targets left.start (left.paths source member)
  · intro id node found
    obtain ⟨source, member, -, rfl⟩ := laid.made found
    obtain ⟨old, there⟩ := node?_isSome_iff.mpr (left.inside source member)
    exact ⟨_, source, old, there, by rw [remainsAt_of_found there]⟩

end Forest

end Readings
