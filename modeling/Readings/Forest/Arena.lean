import Readings.Forest.Basic
import Std.Data.HashMap

/-! Forests under construction: nodes are numbered as they are made, and the number of each is kept
under the key it was made for. -/

namespace Readings

structure Arena (κ : Type) [BEq κ] [Hashable κ] where
  nodes : Array ForestNode
  numbers : Std.HashMap κ NodeId

namespace Arena

variable {κ : Type} [BEq κ] [Hashable κ]

def empty : Arena κ := ⟨#[], ∅⟩

def number (arena : Arena κ) (key : κ) : NodeId := arena.numbers.getD key 0

def push (arena : Arena κ) (key : κ) (node : ForestNode) : Arena κ :=
  ⟨arena.nodes.push node, arena.numbers.insert key arena.nodes.size⟩

def redirect (arena : Arena κ) (key other : κ) : Arena κ :=
  ⟨arena.nodes, arena.numbers.insert key (arena.number other)⟩

end Arena

end Readings
