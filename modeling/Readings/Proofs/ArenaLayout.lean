import Readings.Forest.Arena
import Readings.Proofs.ForestTrees

/-! Forests laid out in an arena, key by key. What is made for a key refers to other keys; when it is
laid out, these are replaced by their numbers, and a choice with one alternative by that alternative. If
every key comes after those it refers to, the forest is layered, and the trees at the number of a key are
those that the key stands for. -/

namespace Readings

/-- A forest node that refers to keys. -/
inductive Shape (κ : Type) where
  | leaf (token : Nat) (span : TokenSpan)
  | choice (symbol : Symbol) (span : TokenSpan) (alternatives : List κ)
  | application (rule : RuleId) (symbol : Symbol) (span : TokenSpan) (children : List κ)
      (priority : Int) (action : Option String)

namespace Shape

variable {κ : Type}

def targets : Shape κ → List κ
  | .leaf _ _ => []
  | .choice _ _ alternatives => alternatives
  | .application _ _ _ children _ _ => children

def fullTrees (lists : κ → List Tree) : Shape κ → List Tree
  | .leaf token _ => [.leaf token]
  | .choice _ _ alternatives => alternatives.flatMap lists
  | .application rule symbol span children _ _ =>
    (sequences lists children).map (.node rule symbol span)

theorem fullTrees_congr {lists others : κ → List Tree} {shape : Shape κ}
    (same : ∀ key ∈ shape.targets, lists key = others key) :
    shape.fullTrees lists = shape.fullTrees others := by
  cases shape with
  | leaf token span => rfl
  | choice symbol span alternatives => exact List.flatMap_congr same
  | application rule symbol span children priority action =>
    exact congrArg _ (sequences_congr same)

def node (number : κ → NodeId) : Shape κ → ForestNode
  | .leaf token span => .leaf token span
  | .choice symbol span alternatives => .choice symbol span (alternatives.map number)
  | .application rule symbol span children priority action =>
    .application rule symbol span (children.map number) priority action

def map {ι : Type} (image : κ → ι) : Shape κ → Shape ι
  | .leaf token span => .leaf token span
  | .choice symbol span alternatives => .choice symbol span (alternatives.map image)
  | .application rule symbol span children priority action =>
    .application rule symbol span (children.map image) priority action

theorem targets_map {ι : Type} (image : κ → ι) (shape : Shape κ) :
    (shape.map image).targets = shape.targets.map image := by
  cases shape <;> rfl

theorem node_map {ι : Type} (image : κ → ι) (number : ι → NodeId) (shape : Shape κ) :
    (shape.map image).node number = shape.node fun key => number (image key) := by
  cases shape <;> simp [map, node]

/-- The key that stands in for a shape that needs no node of its own. -/
def only? : Shape κ → Option κ
  | .choice _ _ [only] => some only
  | _ => none

theorem successors_node (number : κ → NodeId) (shape : Shape κ) :
    (shape.node number).successors = shape.targets.map number := by
  cases shape <;> rfl

theorem fullTrees_node (number : κ → NodeId) (lists : NodeId → List Tree) (shape : Shape κ) :
    (shape.node number).fullTrees lists = shape.fullTrees fun key => lists (number key) := by
  cases shape with
  | leaf => rfl
  | choice => exact List.flatMap_map ..
  | application => exact congrArg _ (sequences_map number _)

theorem node_congr {number other : κ → NodeId} {shape : Shape κ}
    (same : ∀ key ∈ shape.targets, number key = other key) : shape.node number = shape.node other := by
  cases shape with
  | leaf => rfl
  | choice symbol span alternatives =>
    exact congrArg (ForestNode.choice symbol span) (List.map_congr_left same)
  | application rule symbol span children priority action =>
    exact congrArg (fun children => ForestNode.application rule symbol span children priority action)
      (List.map_congr_left same)

theorem fullTrees_only {shape : Shape κ} {only : κ} (alone : shape.only? = some only)
    (lists : κ → List Tree) : shape.fullTrees lists = lists only := by
  match shape, alone with
  | .choice _ _ [_], rfl => exact List.append_nil _

theorem only?_map {ι : Type} (image : κ → ι) (shape : Shape κ) :
    (shape.map image).only? = shape.only?.map image := by
  match shape with
  | .leaf _ _ => rfl
  | .application .. => rfl
  | .choice _ _ [] => rfl
  | .choice _ _ [_] => rfl
  | .choice _ _ (_ :: _ :: _) => rfl

theorem only_mem {shape : Shape κ} {only : κ} (alone : shape.only? = some only) :
    only ∈ shape.targets := by
  match shape, alone with
  | .choice _ _ [_], rfl => exact List.mem_cons_self

end Shape

namespace Arena

variable {κ : Type} [BEq κ] [Hashable κ]

def lay (shape : κ → Shape κ) (arena : Arena κ) (key : κ) : Arena κ :=
  match (shape key).only? with
  | some only => arena.redirect key only
  | none => arena.push key ((shape key).node arena.number)

def laidOut (shape : κ → Shape κ) (order : List κ) : Arena κ := order.foldl (Arena.lay shape) Arena.empty

theorem laidOut_concat (shape : κ → Shape κ) (order : List κ) (key : κ) :
    laidOut shape (order ++ [key]) = (laidOut shape order).lay shape key := by
  rw [laidOut, List.foldl_append]
  rfl

def forest (arena : Arena κ) (root : Option NodeId) (tokenCount : Nat) : Forest :=
  ⟨arena.nodes, root, tokenCount⟩

def Stands (shape : κ → Shape κ) (arena : Arena κ) (key : κ) : Prop :=
  match (shape key).only? with
  | some only => arena.number key = arena.number only
  | none => arena.nodes[arena.number key]? = some ((shape key).node arena.number)

/-- An arena with some keys laid out. -/
structure Laid (shape : κ → Shape κ) (arena : Arena κ) (order : List κ) : Prop where
  placed : ∀ key ∈ order, arena.number key < arena.nodes.size
  stands : ∀ key ∈ order, arena.Stands shape key
  keyed : ∀ id < arena.nodes.size, ∃ key ∈ order, (shape key).only? = none ∧ arena.number key = id
  distinct : ∀ key ∈ order, ∀ other ∈ order, (shape key).only? = none → (shape other).only? = none →
    arena.number key = arena.number other → key = other
  layered : (arena.forest none 0).Layered

variable {shape : κ → Shape κ} {arena : Arena κ} {order : List κ} {key : κ}

private theorem nodes_lay (shape : κ → Shape κ) (arena : Arena κ) (key : κ) :
    (arena.lay shape key).nodes = arena.nodes ∨ (shape key).only? = none ∧
      (arena.lay shape key).nodes = arena.nodes.push ((shape key).node arena.number) := by
  simp only [lay]
  split
  next => exact Or.inl rfl
  next none => exact Or.inr ⟨none, rfl⟩

theorem nodes_lay_self (none : (shape key).only? = none) :
    (arena.lay shape key).nodes = arena.nodes.push ((shape key).node arena.number) := by
  rw [lay, none]
  rfl

private theorem node_lay {id : NodeId} {node : ForestNode} (found : arena.nodes[id]? = some node) :
    (arena.lay shape key).nodes[id]? = some node := by
  obtain ⟨inside, -⟩ := Array.getElem?_eq_some_iff.mp found
  rcases nodes_lay shape arena key with same | ⟨-, more⟩
  · rwa [same]
  · rw [more, Array.getElem?_push, if_neg (Nat.ne_of_lt inside), found]

private theorem size_lay : arena.nodes.size ≤ (arena.lay shape key).nodes.size := by
  rcases nodes_lay shape arena key with same | ⟨-, more⟩
  · exact Nat.le_of_eq (congrArg Array.size same.symm)
  · rw [more, Array.size_push]
    exact Nat.le_succ _

private theorem node_cases (shape : κ → Shape κ) (arena : Arena κ) (key : κ) {id : NodeId}
    {node : ForestNode} (found : (arena.lay shape key).nodes[id]? = some node) :
    id = arena.nodes.size ∧ node = (shape key).node arena.number ∨ arena.nodes[id]? = some node := by
  rcases nodes_lay shape arena key with same | ⟨-, more⟩
  · exact Or.inr (same ▸ found)
  · rw [more, Array.getElem?_push] at found
    split at found
    next last => exact Or.inl ⟨last, (Option.some.inj found).symm⟩
    next => exact Or.inr found

private theorem layered_lay (layered : (arena.forest none 0).Layered)
    (placed : ∀ child ∈ ((shape key).node arena.number).successors, child < arena.nodes.size)
    (chosen : ∀ symbol span, shape key ≠ .choice symbol span []) :
    ((arena.lay shape key).forest none 0).Layered := by
  constructor
  · intro id node found
    rcases node_cases shape arena key found with ⟨rfl, rfl⟩ | old
    · exact placed
    · exact layered.earlier id node old
  · intro id symbol span alternatives found none
    rcases node_cases shape arena key found with ⟨-, same⟩ | old
    · cases made : shape key with
      | choice =>
        simp only [made, Shape.node, none, ForestNode.choice.injEq] at same
        exact chosen _ _ (made.trans (congrArg _ (List.map_eq_nil_iff.mp same.2.2.symm)))
      | leaf => simp [made, Shape.node] at same
      | application => simp [made, Shape.node] at same
    · exact layered.chosen id _ _ _ old none

theorem Laid.layered_forest (laid : arena.Laid shape order) (root : Option NodeId) (tokenCount : Nat) :
    (arena.forest root tokenCount).Layered :=
  ⟨laid.layered.earlier, laid.layered.chosen⟩

theorem Laid.node_eq (laid : arena.Laid shape order) (member : key ∈ order)
    (none : (shape key).only? = none) :
    arena.nodes[arena.number key]? = some ((shape key).node arena.number) := by
  have stands := laid.stands key member
  rwa [Stands, none] at stands

theorem Laid.made (laid : arena.Laid shape order) {id : NodeId} {node : ForestNode}
    (found : arena.nodes[id]? = some node) :
    ∃ key ∈ order, (shape key).only? = none ∧ node = (shape key).node arena.number := by
  obtain ⟨key, member, none, rfl⟩ := laid.keyed id (Array.getElem?_eq_some_iff.mp found).1
  exact ⟨key, member, none, Option.some.inj (found.symm.trans (laid.node_eq member none))⟩

theorem Laid.trees_eq (laid : arena.Laid shape order) (root : Option NodeId) (tokenCount : Nat)
    (member : key ∈ order) :
    (arena.forest root tokenCount).trees (arena.number key) =
      (shape key).fullTrees fun target => (arena.forest root tokenCount).trees (arena.number target) := by
  have stands := laid.stands key member
  simp only [Stands] at stands
  split at stands
  next only alone => rw [Shape.fullTrees_only alone, stands]
  next =>
    rw [(laid.layered_forest root tokenCount).trees_eq stands, Shape.fullTrees_node]

variable [LawfulBEq κ] [DecidableEq κ]

theorem number_push (arena : Arena κ) (key other : κ) (node : ForestNode) :
    (arena.push key node).number other = if key = other then arena.nodes.size else arena.number other := by
  simp only [number, push, Std.HashMap.getD_insert, beq_iff_eq]

theorem number_redirect (arena : Arena κ) (key target other : κ) :
    (arena.redirect key target).number other =
      if key = other then arena.number target else arena.number other := by
  simp only [number, redirect, Std.HashMap.getD_insert, beq_iff_eq]

theorem number_lay_of_ne {other : κ} (differ : key ≠ other) :
    (arena.lay shape key).number other = arena.number other := by
  simp only [lay]
  split
  next => rw [number_redirect, if_neg differ]
  next => rw [number_push, if_neg differ]

theorem number_lay_self (none : (shape key).only? = none) :
    (arena.lay shape key).number key = arena.nodes.size := by
  rw [lay, none, number_push, if_pos rfl]

private theorem Stands.lay {other : κ} (stands : arena.Stands shape other)
    (fixed : ∀ target ∈ other :: (shape other).targets, key ≠ target) :
    (arena.lay shape key).Stands shape other := by
  simp only [List.forall_mem_cons] at fixed
  simp only [Stands] at stands ⊢
  split at stands
  next only alone =>
    rw [number_lay_of_ne fixed.1, number_lay_of_ne (fixed.2 only (Shape.only_mem alone)), stands]
  next =>
    rw [number_lay_of_ne fixed.1, node_lay stands]
    exact congrArg some (Shape.node_congr fun target member =>
      (number_lay_of_ne (fixed.2 target member)).symm)

private theorem stands_key (fresh : key ∉ (shape key).targets) :
    (arena.lay shape key).Stands shape key := by
  simp only [Stands]
  split
  next only alone =>
    have member := Shape.only_mem alone
    have differ : key ≠ only := fun same => fresh (same ▸ member)
    rw [number_lay_of_ne differ]
    simp only [lay, alone, number_redirect, if_true]
  next none =>
    have same : (shape key).node (arena.lay shape key).number = (shape key).node arena.number :=
      Shape.node_congr fun target member => number_lay_of_ne fun equal => fresh (equal ▸ member)
    rw [same]
    simp only [lay, none, number_push, if_true]
    exact Array.getElem?_push_size

private theorem Laid.lay (laid : arena.Laid shape order) (fresh : key ∉ order)
    (below : (shape key).targets ⊆ order)
    (closed : ∀ other ∈ order, (shape other).targets ⊆ order)
    (chosen : ∀ symbol span, shape key ≠ .choice symbol span []) :
    (arena.lay shape key).Laid shape (order ++ [key]) := by
  have other_key : ∀ other ∈ order, key ≠ other := fun other member same => fresh (same ▸ member)
  constructor
  · intro other member
    rcases List.mem_append.mp member with member | last
    · rw [number_lay_of_ne (other_key other member)]
      exact Nat.lt_of_lt_of_le (laid.placed other member) size_lay
    · obtain rfl := List.mem_singleton.mp last
      simp only [lay]
      split
      next only alone =>
        rw [number_redirect, if_pos rfl]
        exact laid.placed only (below (Shape.only_mem alone))
      next =>
        rw [number_push, if_pos rfl]
        simp [push]
  · intro other member
    rcases List.mem_append.mp member with member | last
    · apply (laid.stands other member).lay
      intro target inside
      rcases List.mem_cons.mp inside with rfl | inside
      · exact other_key _ member
      · exact other_key target (closed other member inside)
    · obtain rfl := List.mem_singleton.mp last
      exact stands_key fun inside => fresh (below inside)
  · intro id inside
    by_cases old : id < arena.nodes.size
    · obtain ⟨other, member, none, rfl⟩ := laid.keyed id old
      exact ⟨other, List.mem_append_left _ member, none, number_lay_of_ne (other_key other member)⟩
    · refine ⟨key, List.mem_append_right _ List.mem_cons_self, ?_⟩
      rcases nodes_lay shape arena key with same | ⟨none, more⟩
      · exact absurd (same ▸ inside) old
      · rw [more, Array.size_push] at inside
        refine ⟨none, ?_⟩
        rw [number_lay_self none]
        exact Nat.le_antisymm (Nat.not_lt.mp old) (Nat.le_of_lt_succ inside)
  · have differ : ∀ other ∈ order, (shape key).only? = none →
        (arena.lay shape key).number other ≠ (arena.lay shape key).number key := by
      intro other member alone same
      rw [number_lay_of_ne (other_key other member), number_lay_self alone] at same
      exact Nat.ne_of_lt (laid.placed other member) same
    intro first member second inside alone lone same
    rcases List.mem_append.mp member with early | last <;>
      rcases List.mem_append.mp inside with before | final
    · rw [number_lay_of_ne (other_key first early), number_lay_of_ne (other_key second before)] at same
      exact laid.distinct first early second before alone lone same
    · obtain rfl := List.mem_singleton.mp final
      exact absurd same (differ first early lone)
    · obtain rfl := List.mem_singleton.mp last
      exact absurd same.symm (differ second before alone)
    · exact (List.mem_singleton.mp last).trans (List.mem_singleton.mp final).symm
  · have placed : ∀ child ∈ ((shape key).node arena.number).successors, child < arena.nodes.size := by
      intro child member
      rw [Shape.successors_node] at member
      obtain ⟨target, inside, rfl⟩ := List.mem_map.mp member
      exact laid.placed target (below inside)
    exact layered_lay laid.layered placed chosen

/-- Keys laid out in an order in which each comes after those it refers to. -/
theorem laid_laidOut {targets : κ → Option (List κ)} (ordered : Postordered targets order)
    (known : ∀ key ∈ order, targets key = some (shape key).targets)
    (chosen : ∀ key ∈ order, ∀ symbol span, shape key ≠ .choice symbol span []) :
    (laidOut shape order).Laid shape order := by
  induction ordered with
  | nil =>
    refine ⟨fun _ member => absurd member List.not_mem_nil,
      fun _ member => absurd member List.not_mem_nil,
      fun _ inside => absurd inside (Nat.not_lt_zero _),
      fun _ member => absurd member List.not_mem_nil, ?_, ?_⟩ <;>
      simp [Forest.node?, forest, laidOut, empty]
  | @leave order key next before fresh found below ih =>
    have laid := ih (fun other member => known other (List.mem_append_left _ member))
      fun other member => chosen other (List.mem_append_left _ member)
    have last : key ∈ order ++ [key] := List.mem_append_right _ List.mem_cons_self
    obtain rfl : next = (shape key).targets := Option.some.inj (found.symm.trans (known key last))
    rw [laidOut_concat]
    apply laid.lay fresh below ?_ (chosen key last)
    intro other member target inside
    exact before.closed member ⟨_, known other (List.mem_append_left _ member), inside⟩

end Arena

/-- The forest of keys laid out, with the node of a goal as its root. -/
def Forest.laidOut {κ : Type} [BEq κ] [Hashable κ] (shape : κ → Shape κ) (goal : κ) (order : List κ)
    (tokenCount : Nat) : Forest :=
  (Arena.laidOut shape order).forest ((Arena.laidOut shape order).number goal) tokenCount

end Readings
