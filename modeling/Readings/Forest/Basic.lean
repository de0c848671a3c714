import Readings.Derivation.Tree

/-! Shared packed forests. The nodes of a forest are numbered and refer to each other by number, so a
part that many derivations have in common is stored once. Forests may come from outside, and
`isWellFormed` checks what those built from derivations keep. -/

namespace Readings

/-- The place of a node in its forest. Places are not cut to the 32 bits that hold a number of a node, as
no memory has room for a forest with more nodes than these can tell apart. -/
abbrev NodeId := Nat

inductive ForestNode where
  /-- Several ways to derive a symbol over one span. -/
  | choice (symbol : Symbol) (span : TokenSpan) (alternatives : List NodeId)
  /-- A rule applied to the nodes below. -/
  | application (rule : RuleId) (symbol : Symbol) (span : TokenSpan) (children : List NodeId)
      (priority : Int) (action : Option String)
  | leaf (token : Nat) (span : TokenSpan)
deriving Repr, DecidableEq, Inhabited

namespace ForestNode

def span : ForestNode → TokenSpan
  | .choice _ span _ => span
  | .application _ _ span _ _ _ => span
  | .leaf _ span => span

def successors : ForestNode → List NodeId
  | .choice _ _ alternatives => alternatives
  | .application _ _ _ children _ _ => children
  | .leaf _ _ => []

def isChoice : ForestNode → Bool
  | .choice _ _ _ => true
  | _ => false

def symbol? : ForestNode → Option Symbol
  | .choice symbol _ _ => some symbol
  | .application _ symbol _ _ _ _ => some symbol
  | .leaf _ _ => none

/-- Only rule applications have a priority. -/
def priority? : ForestNode → Option Int
  | .application _ _ _ _ priority _ => some priority
  | _ => none

def applies (symbol : Symbol) (span : TokenSpan) : ForestNode → Bool
  | .application _ ownSymbol ownSpan _ _ _ => ownSymbol == symbol && ownSpan == span
  | _ => false

end ForestNode

structure Forest where
  nodes : Array ForestNode
  root : Option NodeId
  tokenCount : Nat
deriving Repr, DecidableEq, Inhabited

/-- Counts of derivations go no higher. -/
def derivationCountMax : Nat := UInt64.size - 1

namespace Forest

def empty (tokenCount : Nat) : Forest := ⟨#[], none, tokenCount⟩

def size (forest : Forest) : Nat := forest.nodes.size

def isEmpty (forest : Forest) : Bool := forest.nodes.isEmpty

def node? (forest : Forest) (id : NodeId) : Option ForestNode := forest.nodes[id]?

def rootNode? (forest : Forest) : Option ForestNode := forest.root.bind forest.node?

def isAmbiguous (forest : Forest) : Bool := forest.nodes.any ForestNode.isChoice

def entries (forest : Forest) : List (NodeId × ForestNode) :=
  forest.nodes.toList.zipIdx.map fun (node, id) => (id, node)

def choices (forest : Forest) : List NodeId :=
  (forest.entries.filter fun (_, node) => node.isChoice).map (·.1)

/-- Whether what a node refers to comes before it and lies within its span. -/
def hasNestedSuccessors (forest : Forest) (id : NodeId) (node : ForestNode) : Bool :=
  node.successors.all fun child =>
    decide (child < id) && ((forest.node? child).map fun child => node.span.contains child.span).getD false

/-- Whether a choice has at least two alternatives, each of which applies a rule for its symbol over
its span. -/
def hasProperAlternatives (forest : Forest) : ForestNode → Bool
  | .choice symbol span alternatives =>
    decide (2 ≤ alternatives.length) && alternatives.all fun alternative =>
      ((forest.node? alternative).map (ForestNode.applies symbol span)).getD false
  | _ => true

def isWellFormed (forest : Forest) : Bool :=
  forest.entries.all fun (id, node) =>
    forest.hasNestedSuccessors id node && forest.hasProperAlternatives node

/-- The count of a node from those of the nodes before it. -/
def countNode (counts : Array Nat) (node : ForestNode) : Except Fault Nat := do
  let below ← node.successors.mapM fun child =>
    match counts[child]? with
    | some count => Except.ok count
    | none => .error Fault.danglingNode
  return match node with
    | .choice _ _ _ => below.foldl (fun sum count => min (sum + count) derivationCountMax) 0
    | _ => below.foldl (fun product count => min (product * count) derivationCountMax) 1

/-- For every node the number of derivations below it, as far as counts go. -/
def countAll (forest : Forest) : Except Fault (Array Nat) :=
  forest.nodes.foldlM (fun counts node => counts.push <$> countNode counts node) #[]

/-- The number of derivations below a node; there are none below a node that is not there. -/
def countDerivations (forest : Forest) (id : NodeId) : Except Fault Nat := do
  return (← forest.countAll).getD id 0

end Forest

structure ForestStats where
  nodes : Nat
  choices : Nat
  applications : Nat
  leaves : Nat
  maxAlternatives : Nat
  derivations : Nat
deriving Repr, DecidableEq, Inhabited

namespace ForestStats

def add (stats : ForestStats) : ForestNode → ForestStats
  | .choice _ _ alternatives =>
    { stats with
      choices := stats.choices + 1
      maxAlternatives := max stats.maxAlternatives alternatives.length }
  | .application _ _ _ _ _ _ => { stats with applications := stats.applications + 1 }
  | .leaf _ _ => { stats with leaves := stats.leaves + 1 }

end ForestStats

def Forest.stats (forest : Forest) : Except Fault ForestStats := do
  let derivations ← match forest.root with
    | some root => forest.countDerivations root
    | none => .ok 0
  let counted := forest.nodes.foldl ForestStats.add ⟨forest.size, 0, 0, 0, 0, 0⟩
  return { counted with derivations }

end Readings
