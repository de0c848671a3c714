import Readings.Derivation.Printer
import Readings.Forest.Basic

/-! Forests as text: an indented tree that refers back to parts it has shown, and a directed graph in
the DOT format. -/

namespace Readings

def renderNodeId (id : NodeId) : String := "n" ++ toString id

namespace Forest

def renderLine (grammar : Grammar) (tokens : Array Token) (id : NodeId) :
    ForestNode → Except Fault String
  | .choice symbol span alternatives => do
    let name ← grammar.symbolName symbol
    return renderNodeId id ++ " OR " ++ name ++ " " ++ span.render ++ " " ++
      toString alternatives.length ++ " readings"
  | .application rule symbol span _ priority action => do
    let name ← grammar.symbolName symbol
    let rule ← grammar.rule rule
    return renderNodeId id ++ " " ++ name ++ " " ++ span.render ++ " " ++ rule.name ++ " p" ++
      toString priority ++ renderAction action
  | .leaf token _ => .ok (Text.quote (Token.textAt tokens token))

/-- An indented tree in the making: its lines and the nodes shown in full. -/
structure Outline where
  text : String
  shown : List NodeId

/-- Shows a node and what is below it. Nodes that refer to others are shown in full once. No path grows
longer than `fuel`. -/
def outline (forest : Forest) (grammar : Grammar) (tokens : Array Token) :
    Nat → Nat → Outline → NodeId → Except Fault Outline
  | 0, _, _, _ => .error .circular
  | fuel + 1, depth, sofar, id =>
    match forest.node? id with
    | none => .ok sofar
    | some node =>
      if sofar.shown.contains id then
        .ok { sofar with
              text := sofar.text ++ indentation depth ++ "(see " ++ renderNodeId id ++ ")\n" }
      else do
        let line ← renderLine grammar tokens id node
        let shown := match node with
          | .leaf _ _ => sofar.shown
          | _ => id :: sofar.shown
        node.successors.foldlM (outline forest grammar tokens fuel (depth + 1))
          { text := sofar.text ++ indentation depth ++ line ++ "\n", shown }

def render (forest : Forest) (grammar : Grammar) (tokens : Array Token) : Except Fault String :=
  match forest.root with
  | none => .ok "(empty forest)\n"
  | some root => do
    return (← forest.outline grammar tokens (forest.size + 2) 0 ⟨"", []⟩ root).text

def escapeLabel (text : String) : String :=
  String.ofList (text.toList.flatMap fun c => if c = '\\' ∨ c = '"' then ['\\', c] else [c])

def renderShape (grammar : Grammar) (tokens : Array Token) : ForestNode → Except Fault (String × String)
  | .choice symbol span alternatives => do
    let name ← grammar.symbolName symbol
    return (escapeLabel name ++ " " ++ span.render ++ "\\n" ++ toString alternatives.length ++
      " readings", "shape=diamond, style=filled, fillcolor=lightsalmon")
  | .application rule _ _ _ priority action => do
    let rule ← grammar.rule rule
    let suffix := match action with
      | some action => " / " ++ escapeLabel action
      | none => ""
    return (escapeLabel rule.name ++ "\\np" ++ toString priority ++ suffix, "shape=box")
  | .leaf token _ =>
    .ok (escapeLabel (Token.textAt tokens token), "shape=ellipse, style=filled, fillcolor=lightblue")

def renderVertex (forest : Forest) (grammar : Grammar) (tokens : Array Token) (id : NodeId)
    (node : ForestNode) : Except Fault String := do
  let (label, shape) ← renderShape grammar tokens node
  let width := if forest.root == some id then ", penwidth=2" else ""
  return "  " ++ renderNodeId id ++ " [label=\"" ++ label ++ "\", " ++ shape ++ width ++ "];\n"

def renderEdges (id : NodeId) (node : ForestNode) : String :=
  let style := if node.isChoice then " [style=dashed]" else ""
  String.join (node.successors.map fun successor =>
    "  " ++ renderNodeId id ++ " -> " ++ renderNodeId successor ++ style ++ ";\n")

/-- The forest as a graph: choices as diamonds, rule applications as boxes and tokens as ellipses, the
root with a bold outline. -/
def renderGraph (forest : Forest) (grammar : Grammar) (tokens : Array Token) : Except Fault String := do
  let vertices ← forest.entries.mapM fun (id, node) => forest.renderVertex grammar tokens id node
  let edges := forest.entries.map fun (id, node) => renderEdges id node
  return "digraph Forest \x7b\n  rankdir=TB;\n  node [fontname=\"Helvetica\"];\n\n" ++
    String.join vertices ++ "\n" ++ String.join edges ++ "\x7d\n"

end Forest

end Readings
