import Readings.Forest.Arena
import Readings.Postorder

/-! Packing derivations into a forest. Every rule application is filed under its symbol and span, and
there under its rule and the places of its children. Places with one application become that
application, places with several a choice among them. -/

namespace Readings

/-- A place in a forest: a symbol derived over a span. -/
structure Slot where
  symbol : Symbol
  span : TokenSpan
deriving Repr, DecidableEq, Inhabited, Hashable

inductive Part where
  | leaf (token : Nat)
  | slot (slot : Slot)
deriving Repr, DecidableEq, Inhabited, Hashable

/-- An application of a rule to parts. -/
structure Packing where
  rule : RuleId
  parts : List Part
deriving Repr, DecidableEq, Inhabited, Hashable

namespace Tree

def part : Tree → Part
  | .leaf token => .leaf token
  | .node _ lhs span _ => .slot ⟨lhs, span⟩

mutual
/-- The rule applications of a tree with their places, each after those below it. -/
def packings : Tree → List (Slot × Packing)
  | .leaf _ => []
  | .node rule lhs span children =>
    packingsOf children ++ [(⟨lhs, span⟩, ⟨rule, children.map part⟩)]
def packingsOf : List Tree → List (Slot × Packing)
  | [] => []
  | tree :: trees => packings tree ++ packingsOf trees
end

end Tree

/-- The applications filed under each place, each once, in the order in which they were met. -/
structure Filing where
  slots : Std.HashMap Slot (List Packing)

namespace Filing

def empty : Filing := ⟨∅⟩

def alternatives (filing : Filing) (slot : Slot) : List Packing := filing.slots.getD slot []

def add (filing : Filing) (entry : Slot × Packing) : Filing :=
  let known := filing.alternatives entry.1
  if known.contains entry.2 then filing else ⟨filing.slots.insert entry.1 (known ++ [entry.2])⟩

def ofDerivations (derivations : List Derivation) : Filing :=
  (derivations.flatMap fun derivation => derivation.tree.packings).foldl add empty

end Filing

/-- What a node of a forest is made for. -/
inductive Emission where
  | leaf (token : Nat)
  | slot (slot : Slot)
  /-- One of the applications filed under a place. -/
  | alternative (slot : Slot) (packing : Packing)
deriving Repr, DecidableEq, Inhabited, Hashable

namespace Emission

def ofPart : Part → Emission
  | .leaf token => .leaf token
  | .slot place => .slot place

def requires (filing : Filing) : Emission → List Emission
  | .leaf _ => []
  | .slot place => (filing.alternatives place).map (.alternative place)
  | .alternative _ packing => packing.parts.map ofPart

/-- Makes the node; a place with one application needs none of its own. -/
def emit (grammar : Grammar) (filing : Filing) (arena : Arena Emission) (emission : Emission) :
    Except Fault (Arena Emission) :=
  match emission with
  | .leaf token => do
    return arena.push emission (.leaf token (← TokenSpan.single token))
  | .alternative place packing => do
    let rule ← grammar.rule packing.rule
    let children := packing.parts.map fun part => arena.number (ofPart part)
    return arena.push emission
      (.application packing.rule place.symbol place.span children rule.priority rule.action)
  | .slot place =>
    match filing.alternatives place with
    | [only] => .ok (arena.redirect emission (.alternative place only))
    | alternatives =>
      let numbers := alternatives.map fun packing => arena.number (.alternative place packing)
      .ok (arena.push emission (.choice place.symbol place.span numbers))

end Emission

/-- Packs derivations into a forest, whose root is the place of the first. -/
def Forest.ofDerivations (grammar : Grammar) (derivations : List Derivation) (tokenCount : Nat) :
    Except Fault Forest :=
  match derivations with
  | [] => .ok (Forest.empty tokenCount)
  | first :: _ =>
    let filing := Filing.ofDerivations derivations
    let root := Emission.slot ⟨first.lhs, first.span⟩
    match Walk.start.visit (fun emission => some (emission.requires filing))
        (2 * filing.slots.size + 2) root with
    | .error _ => .error .circular
    | .ok walk => do
      let arena ← walk.order.foldlM (Emission.emit grammar filing) Arena.empty
      return { nodes := arena.nodes, root := some (arena.number root), tokenCount }

end Readings
