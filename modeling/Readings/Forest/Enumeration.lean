import Readings.Capped
import Readings.Forest.Basic
import Readings.Postorder
import Std.Data.HashMap

/-! Derivations read out of a forest, the alternatives of every choice in their order. The trees of
every node are found after those of the nodes it refers to, and no list grows beyond the limit. -/

namespace Readings.Forest

structure TreeTable where
  trees : Std.HashMap NodeId (List Tree)
  cut : Bool

namespace TreeTable

def empty : TreeTable := ⟨∅, false⟩

def treesOf (table : TreeTable) (id : NodeId) : List Tree := table.trees.getD id []

/-- The trees of a node, from those of the nodes it refers to. -/
def collect (table : TreeTable) (limit : Nat) : ForestNode → Capped Tree
  | .leaf token _ => ⟨[.leaf token], false⟩
  | .choice _ _ alternatives =>
    alternatives.foldl (fun found id => found.offer limit (table.treesOf id)) Capped.empty
  | .application rule symbol span children _ _ =>
    let found : Capped (List Tree) := children.foldl
      (fun found id => found.cross limit (fun first last => first ++ [last]) (table.treesOf id))
      ⟨[[]], false⟩
    ⟨found.values.map (.node rule symbol span), found.cut⟩

/-- Enters the trees of a node; a node that is not there has none. -/
def enter (forest : Forest) (limit : Nat) (table : TreeTable) (id : NodeId) : TreeTable :=
  match forest.node? id with
  | none => table
  | some node =>
    let found := table.collect limit node
    ⟨table.trees.insert id found.values, table.cut || found.cut⟩

end TreeTable

/-- The first derivations that the forest packs, at most `limit` but at least one. -/
def derivations (forest : Forest) (limit : Nat) : Except Fault Selection :=
  match forest.root with
  | none => .ok Selection.none
  | some root =>
    let successors := fun id => some (((forest.node? id).map ForestNode.successors).getD [])
    match Walk.start.visit successors (forest.size + 1) root with
    | .error _ => .error .circular
    | .ok walk =>
      let table := walk.order.foldl (TreeTable.enter forest (max limit 1)) .empty
      .ok ⟨(table.treesOf root).filterMap Tree.toDerivation?, table.cut⟩

end Readings.Forest
