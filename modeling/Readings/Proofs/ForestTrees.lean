import Readings.Forest.Enumeration
import Readings.Proofs.CappedTable
import Mathlib.Data.List.Forall2
import Mathlib.Data.List.Induction
import Mathlib.Algebra.BigOperators.Group.List.Lemmas

/-! The trees of a forest whose nodes refer only to nodes before them. The full lists are defined by
recursion along the numbers of the nodes; enumeration returns the beginning of the list of the root, and
counting returns the lengths of the lists, as far as counts go. -/

namespace Readings

def sequences {κ α : Type} (lists : κ → List α) (keys : List κ) : List (List α) :=
  keys.foldl (fun found key => pairs (fun first last => first ++ [last]) found (lists key)) [[]]

section
variable {κ α : Type} {lists : κ → List α}

theorem sequences_concat (keys : List κ) (key : κ) :
    sequences lists (keys ++ [key]) =
      pairs (fun first last => first ++ [last]) (sequences lists keys) (lists key) := by
  simp only [sequences, List.foldl_append, List.foldl_cons, List.foldl_nil]

theorem sequences_map {ι : Type} (number : ι → κ) (keys : List ι) :
    sequences lists (keys.map number) = sequences (fun key => lists (number key)) keys := by
  simp only [sequences, List.foldl_map]

theorem sequences_congr {others : κ → List α} {keys : List κ}
    (same : ∀ key ∈ keys, lists key = others key) : sequences lists keys = sequences others keys := by
  induction keys using List.reverseRecOn with
  | nil => rfl
  | append_singleton keys key ih =>
    rw [sequences_concat, sequences_concat, ih fun other member => same other (List.mem_append_left _ member),
      same key (List.mem_append_right _ List.mem_cons_self)]

theorem mem_sequences {keys : List κ} {values : List α} :
    values ∈ sequences lists keys ↔ List.Forall₂ (fun value key => value ∈ lists key) values keys := by
  induction keys using List.reverseRecOn generalizing values with
  | nil => simp [sequences]
  | append_singleton keys key ih =>
    rw [sequences_concat, mem_pairs]
    constructor
    · intro made
      obtain ⟨first, early, last, final, rfl⟩ := made
      exact List.rel_append (ih.mp early) (.cons final .nil)
    · intro all
      have early := List.forall₂_take_append _ _ _ all
      have late := List.forall₂_drop_append _ _ _ all
      obtain ⟨last, rest, final, none, only⟩ := List.forall₂_cons_right_iff.mp late
      obtain rfl := List.forall₂_nil_right_iff.mp none
      exact ⟨_, ih.mpr early, last, final, by rw [← only, List.take_append_drop]⟩

theorem length_sequences (keys : List κ) :
    (sequences lists keys).length = (keys.map fun key => (lists key).length).prod := by
  induction keys using List.reverseRecOn with
  | nil => rfl
  | append_singleton keys key ih => simp [sequences_concat, length_pairs, ih]

theorem nodup_sequences {keys : List κ} (distinct : ∀ key ∈ keys, (lists key).Nodup) :
    (sequences lists keys).Nodup := by
  induction keys using List.reverseRecOn with
  | nil => exact List.nodup_singleton _
  | append_singleton keys key ih =>
    rw [sequences_concat]
    apply nodup_pairs (ih fun other member => distinct other (List.mem_append_left _ member))
      (distinct key (List.mem_append_right _ List.mem_cons_self))
    intro a b c d same
    obtain ⟨front, last⟩ := List.append_inj' same rfl
    exact ⟨front, List.singleton_inj.mp last⟩

end

def ForestNode.fullTrees (lists : NodeId → List Tree) : ForestNode → List Tree
  | .leaf token _ => [.leaf token]
  | .choice _ _ alternatives => alternatives.flatMap lists
  | .application rule symbol span children _ _ =>
    (sequences lists children).map (.node rule symbol span)

theorem ForestNode.fullTrees_congr {lists others : NodeId → List Tree} {node : ForestNode}
    (same : ∀ child ∈ node.successors, lists child = others child) :
    node.fullTrees lists = node.fullTrees others := by
  cases node with
  | leaf token span => rfl
  | choice symbol span alternatives => exact List.flatMap_congr same
  | application rule symbol span children priority action =>
    exact congrArg _ (sequences_congr same)

namespace Forest

/-- Every tree below a node, as long as nodes refer to nodes before them. -/
def trees (forest : Forest) (id : NodeId) : List Tree :=
  match forest.node? id with
  | none => []
  | some node => node.fullTrees fun child => if child < id then forest.trees child else []
termination_by id

/-- Nodes refer to nodes before them, and choices have alternatives. -/
structure Layered (forest : Forest) : Prop where
  earlier : ∀ id node, forest.node? id = some node → ∀ child ∈ node.successors, child < id
  chosen : ∀ id symbol span alternatives,
    forest.node? id = some (.choice symbol span alternatives) → alternatives ≠ []

variable {forest : Forest}

theorem node?_empty (tokenCount : Nat) (id : NodeId) : (empty tokenCount).node? id = none := rfl

theorem node?_isSome_iff {id : NodeId} : (∃ node, forest.node? id = some node) ↔ id < forest.size := by
  simp [node?, size, ← Option.isSome_iff_exists]

theorem mem_entries {id : NodeId} {node : ForestNode} :
    (id, node) ∈ forest.entries ↔ forest.node? id = some node := by
  simp [entries, node?, List.mk_mem_zipIdx_iff_getElem?]

theorem Layered.trees_eq (layered : forest.Layered) {id : NodeId} {node : ForestNode}
    (found : forest.node? id = some node) : forest.trees id = node.fullTrees forest.trees := by
  rw [trees, found]
  exact ForestNode.fullTrees_congr fun child member => if_pos (layered.earlier id node found child member)

theorem Layered.length_pos (layered : forest.Layered) (id : NodeId) (inside : id < forest.size) :
    0 < (forest.trees id).length := by
  induction id using Nat.strongRecOn with
  | ind id ih =>
    obtain ⟨node, found⟩ := node?_isSome_iff.mpr inside
    have below : ∀ child ∈ node.successors, 0 < (forest.trees child).length := by
      intro child member
      have earlier := layered.earlier id node found child member
      exact ih child earlier (Nat.lt_trans earlier inside)
    rw [layered.trees_eq found]
    cases node with
    | leaf token span => exact Nat.one_pos
    | choice symbol span alternatives =>
      obtain ⟨first, member⟩ := List.exists_mem_of_ne_nil _ (layered.chosen id _ _ _ found)
      exact Nat.lt_of_lt_of_le (below first member)
        (List.sublist_flatten_of_mem (List.mem_map_of_mem member)).length_le
    | application rule symbol span children priority action =>
      rw [ForestNode.fullTrees, List.length_map, length_sequences]
      apply List.prod_pos_iff_forall_pos_nat.mpr
      intro count member
      obtain ⟨child, inside, rfl⟩ := List.mem_map.mp member
      exact below child inside

def successorGraph (forest : Forest) (id : NodeId) : Option (List NodeId) :=
  some (((forest.node? id).map ForestNode.successors).getD [])

theorem leads_iff {id child : NodeId} :
    Leads forest.successorGraph id child ↔
      ∃ node, forest.node? id = some node ∧ child ∈ node.successors := by
  rw [show forest.successorGraph = fun id =>
    some (((forest.node? id).map ForestNode.successors).getD []) from rfl, leads_some_iff]
  cases forest.node? id <;> simp

theorem Layered.graded (layered : forest.Layered) :
    Graded forest.successorGraph (· < forest.size) id := by
  constructor
  intro vertex inside
  refine ⟨_, rfl, ?_⟩
  intro child member
  obtain ⟨node, found, below⟩ := leads_iff.mp ⟨_, rfl, member⟩
  have earlier := layered.earlier vertex node found child below
  exact ⟨Nat.lt_trans earlier inside, earlier⟩

theorem Layered.length_le (layered : forest.Layered) {id child : NodeId} (inside : id < forest.size)
    (leads : Leads forest.successorGraph id child) :
    (forest.trees child).length ≤ (forest.trees id).length := by
  obtain ⟨node, found, member⟩ := leads_iff.mp leads
  rw [layered.trees_eq found]
  cases node with
  | leaf token span => exact absurd member List.not_mem_nil
  | choice symbol span alternatives =>
    exact (List.sublist_flatten_of_mem (List.mem_map_of_mem member)).length_le
  | application rule symbol span children priority action =>
    have some := layered.length_pos id inside
    rw [layered.trees_eq found] at some
    rw [ForestNode.fullTrees, List.length_map, length_sequences] at some ⊢
    exact Nat.le_of_dvd some (List.dvd_prod (List.mem_map_of_mem member))

theorem Layered.length_le_of_path (layered : forest.Layered) {root id : NodeId}
    (inside : root < forest.size) (path : Relation.ReflTransGen (Leads forest.successorGraph) root id) :
    (forest.trees id).length ≤ (forest.trees root).length := by
  induction path with
  | refl => exact Nat.le_refl _
  | tail path leads ih =>
    exact Nat.le_trans (layered.length_le (layered.graded.reach inside path).1 leads) ih

/-- The node from which all others are reached is the last. -/
theorem Layered.last_of_reaches (layered : forest.Layered) {root : NodeId} (inside : root < forest.size)
    (reaches : ∀ id < forest.size, Relation.ReflTransGen (Leads forest.successorGraph) root id) :
    root + 1 = forest.size := by
  have last : forest.size - 1 ≤ root :=
    (layered.graded.reach inside (reaches _ (Nat.sub_one_lt_of_lt inside))).2
  exact Nat.le_antisymm inside (Nat.le_add_of_sub_le last)

section
variable {table : TreeTable} {limit : Nat} {blame : Prop} {ids : List NodeId}

private theorem offers_hold
    (known : ∀ id ∈ ids, table.treesOf id = (forest.trees id).take limit)
    (long : ∀ id ∈ ids, limit < (forest.trees id).length → blame)
    {found : Capped Tree} {full : List Tree} (holds : found.Holds limit blame full) :
    (ids.foldl (fun found id => found.offer limit (table.treesOf id)) found).Holds limit blame
      (full ++ ids.flatMap forest.trees) := by
  induction ids generalizing found full with
  | nil => simpa using holds
  | cons id ids ih =>
    simp only [List.forall_mem_cons] at known long
    have first := holds.offerTake long.1
    rw [← known.1] at first
    simpa only [List.foldl_cons, List.flatMap_cons, List.append_assoc] using ih known.2 long.2 first

private theorem crosses_hold
    (known : ∀ id ∈ ids, table.treesOf id = (forest.trees id).take limit)
    (long : ∀ id ∈ ids, limit < (forest.trees id).length → blame)
    (some : ∀ id ∈ ids, 0 < (forest.trees id).length)
    {found : Capped (List Tree)} {full : List (List Tree)} (holds : found.Holds limit blame full) :
    (ids.foldl (fun found id =>
      found.cross limit (fun first last => first ++ [last]) (table.treesOf id)) found).Holds limit blame
      (ids.foldl (fun found id =>
        pairs (fun first last => first ++ [last]) found (forest.trees id)) full) := by
  induction ids generalizing found full with
  | nil => exact holds
  | cons id ids ih =>
    simp only [List.forall_mem_cons] at known long some
    have first := holds.cross (fun first last => first ++ [last])
      (List.ne_nil_of_length_pos some.1) long.1
    rw [← known.1] at first
    exact ih known.2 long.2 some.2 first

private theorem collect_holds (positive : 0 < limit) {node : ForestNode}
    (known : ∀ child ∈ node.successors, table.treesOf child = (forest.trees child).take limit)
    (some : ∀ child ∈ node.successors, 0 < (forest.trees child).length) :
    (table.collect limit node).Holds limit
      (∃ child ∈ node.successors, limit < (forest.trees child).length)
      (node.fullTrees forest.trees) := by
  have long : ∀ child ∈ node.successors, limit < (forest.trees child).length →
      ∃ child ∈ node.successors, limit < (forest.trees child).length :=
    fun child member more => ⟨child, member, more⟩
  cases node with
  | leaf token span => exact Capped.holds_singleton positive _ _
  | choice symbol span alternatives =>
    exact offers_hold known long (Capped.holds_empty _ _)
  | application rule symbol span children priority action =>
    exact (crosses_hold known long some (Capped.holds_singleton positive _ _)).map _

end

private def collectAt (forest : Forest) (limit : Nat) (table : TreeTable) (id : NodeId) : Capped Tree :=
  match forest.node? id with
  | some node => table.collect limit node
  | none => .empty

private theorem collectAt_node {id : NodeId} {node : ForestNode} (found : forest.node? id = some node)
    (limit : Nat) (table : TreeTable) : collectAt forest limit table id = table.collect limit node := by
  simp only [collectAt, found]

private theorem treesOf_enter (table : TreeTable) (limit : Nat) {id : NodeId}
    (inside : id < forest.size) :
    (TreeTable.enter forest limit table id).treesOf = fun other =>
      if id = other then (collectAt forest limit table id).values else table.treesOf other := by
  obtain ⟨node, found⟩ := node?_isSome_iff.mpr inside
  funext other
  simp only [TreeTable.enter, found, collectAt_node found, TreeTable.treesOf, Std.HashMap.getD_insert,
    beq_iff_eq]

private theorem cut_enter (table : TreeTable) (limit : Nat) {id : NodeId} (inside : id < forest.size) :
    (TreeTable.enter forest limit table id).cut = (table.cut || (collectAt forest limit table id).cut) := by
  obtain ⟨node, found⟩ := node?_isSome_iff.mpr inside
  simp only [TreeTable.enter, found, collectAt_node found]

private theorem follows_trees (layered : forest.Layered) {limit : Nat} (positive : 0 < limit)
    {order : List NodeId} (ordered : Postordered forest.successorGraph order)
    (inside : ∀ id ∈ order, id < forest.size) :
    Follows forest.trees limit order (order.foldl (TreeTable.enter forest limit) .empty).treesOf
      (order.foldl (TreeTable.enter forest limit) .empty).cut := by
  apply follows_fold (collectAt forest limit) ordered rfl
  · exact fun table id member => treesOf_enter table limit (inside id member)
  · exact fun table id member => cut_enter table limit (inside id member)
  · intro table id member next leads below
    obtain ⟨node, found⟩ := node?_isSome_iff.mpr (inside id member)
    obtain rfl : node.successors = next := by simpa [successorGraph, found] using leads
    rw [collectAt_node found, layered.trees_eq found]
    apply collect_holds positive
    · exact fun child leads => (below child leads).2
    · exact fun child leads => layered.length_pos child (inside child (below child leads).1)

/-- Enumeration returns the beginning of the trees of the root, and tells whether there are more. -/
theorem Layered.derivations_eq (layered : forest.Layered) {root : NodeId}
    (rooted : forest.root = some root) (inside : root < forest.size) (limit : Nat) :
    forest.derivations limit =
      .ok ⟨((forest.trees root).take (max limit 1)).filterMap Tree.toDerivation?,
        decide (max limit 1 < (forest.trees root).length)⟩ := by
  have positive : 0 < max limit 1 := Nat.lt_of_lt_of_le Nat.one_pos (Nat.le_max_right _ _)
  obtain ⟨walk, walked, reaches⟩ := Walk.visit_reaches layered.graded (forest.size + 1)
    inside (Nat.lt_succ_of_lt inside)
  have within : ∀ id ∈ walk.order.toList, id < forest.size :=
    reaches.stays layered.graded (List.forall_mem_singleton.mpr inside)
  have follows := follows_trees layered positive reaches.sorted.postordered within
  have grows : ∀ id ∈ walk.order.toList, ∀ child, Leads forest.successorGraph id child →
      (forest.trees child).length ≤ (forest.trees id).length := by
    intro id member child leads
    exact layered.length_le (within id member) leads
  have cut : (walk.order.toList.foldl (TreeTable.enter forest (max limit 1)) .empty).cut =
      decide (max limit 1 < (forest.trees root).length) := by
    rw [Bool.eq_iff_iff, decide_eq_true_eq, follows.cut_iff_goal reaches grows]
    simp only [List.mem_singleton, exists_eq_left]
  have start : root ∈ walk.order.toList := reaches.covers List.mem_cons_self
  have visited : Walk.start.visit
      (fun id => some (((forest.node? id).map ForestNode.successors).getD [])) (forest.size + 1) root =
      .ok walk := walked
  simp only [derivations, rooted, visited]
  rw [← cut, ← follows.kept root start, Array.foldl_toList]

end Forest

end Readings
