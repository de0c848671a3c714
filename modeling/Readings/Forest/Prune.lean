import Readings.Forest.Arena
import Readings.Postorder

/-! Pruning by priority. Only choices lose alternatives: those below a threshold, but never the best of
them. A choice that is left with one alternative is replaced by it. -/

namespace Readings.Forest

/-- The priority by which an alternative is judged; what applies no rule has the lowest. -/
def priorityOf (forest : Forest) (id : NodeId) : Int :=
  ((forest.node? id).bind ForestNode.priority?).getD priorityMin

def best? (forest : Forest) (alternatives : List NodeId) : Option NodeId :=
  alternatives.foldl
    (fun best id =>
      match best with
      | none => some id
      | some known => if forest.priorityOf known < forest.priorityOf id then some id else best)
    none

def survivors (forest : Forest) (threshold : Int) (alternatives : List NodeId) : List NodeId :=
  let kept := alternatives.filter fun id => decide (threshold ≤ forest.priorityOf id)
  if kept.isEmpty then (forest.best? alternatives).toList else kept

def survivingSuccessors (forest : Forest) (threshold : Int) : ForestNode → List NodeId
  | .choice _ _ alternatives => forest.survivors threshold alternatives
  | node => node.successors

def rebuild (forest : Forest) (threshold : Int) (arena : Arena NodeId) (id : NodeId) : Arena NodeId :=
  match forest.node? id with
  | none => arena
  | some (.leaf token span) => arena.push id (.leaf token span)
  | some (.application rule symbol span children priority action) =>
    arena.push id
      (.application rule symbol span (children.map arena.number) priority action)
  | some (.choice symbol span alternatives) =>
    match forest.survivors threshold alternatives with
    | [only] => arena.redirect id only
    | kept => arena.push id (.choice symbol span (kept.map arena.number))

/-- The forest without the alternatives below a threshold. It has no root if a node on the way is
missing. -/
def pruned (forest : Forest) (threshold : Int) : Except Fault Forest :=
  match forest.root with
  | none => .ok forest
  | some root =>
    let targets := fun id => (forest.node? id).map (forest.survivingSuccessors threshold)
    let build := fun (walk : Walk NodeId) =>
      walk.order.foldl (forest.rebuild threshold) Arena.empty
    match Walk.start.visit targets (forest.size + 1) root with
    | .ok walk =>
      let arena := build walk
      .ok { forest with nodes := arena.nodes, root := some (arena.number root) }
    | .error (walk, .missing) => .ok { forest with nodes := (build walk).nodes, root := none }
    | .error (_, .circular) => .error .circular

end Readings.Forest
