import Readings.Fault
import Std.Data.HashSet

/-! Walks through a directed graph that leave every vertex after the vertices it leads to. A vertex is
entered once, however many others lead to it, so what is computed along a walk is computed once. -/

namespace Readings

/-- The vertices that a walk has left so far, in the order in which it left them. -/
structure Walk (α : Type) [BEq α] [Hashable α] where
  order : Array α
  left : Std.HashSet α

namespace Walk

variable {α : Type} [BEq α] [Hashable α]

/-- Why a walk stops before its end. -/
inductive Stop where
  /-- A vertex is not in the graph. -/
  | missing
  /-- A path is longer than the walk lets it become. -/
  | circular
deriving Repr, DecidableEq

def start : Walk α := ⟨#[], ∅⟩

def leave (walk : Walk α) (vertex : α) : Walk α :=
  ⟨walk.order.push vertex, walk.left.insert vertex⟩

/-- Visits a vertex that was not left before: first, in turn, those it leads to. No path grows longer
than `fuel`. -/
def visit (targets : α → Option (List α)) : Nat → Walk α → α → Except (Walk α × Stop) (Walk α)
  | 0, walk, vertex => if walk.left.contains vertex then .ok walk else .error (walk, .circular)
  | fuel + 1, walk, vertex =>
    if walk.left.contains vertex then .ok walk
    else
      match targets vertex with
      | none => .error (walk, .missing)
      | some next =>
        match next.foldlM (visit targets fuel) walk with
        | .ok walk => .ok (walk.leave vertex)
        | .error stop => .error stop

def visitAll (targets : α → Option (List α)) (fuel : Nat) (walk : Walk α) (vertices : List α) :
    Except (Walk α × Stop) (Walk α) :=
  vertices.foldlM (visit targets fuel) walk

end Walk

end Readings
