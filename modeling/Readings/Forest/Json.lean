import Readings.Forest.Basic
import Readings.Json.Decode

/-! Forests written in JSON. A node is an object whose type tells which kind of node it is. Symbols are
numbered from one there. -/

namespace Readings

def TokenSpan.toJson (span : TokenSpan) : Json :=
  .object [("start", .nat span.start), ("end", .nat span.stop)]

def TokenSpan.ofJson? (value : Json) : Option TokenSpan := do
  let [start, stop] ← value.record? ["start", "end"] | none
  let start ← Json.required? Json.toCount? start
  let stop ← Json.required? Json.toCount? stop
  return ⟨start, stop⟩

def symbolOfJson? (value : Json) : Option Symbol := do
  match ← value.toWord? with
  | 0 => none
  | number + 1 => return number

namespace ForestNode

def toJson : ForestNode → Json
  | .choice symbol span alternatives =>
    .object [("type", .text "or"), ("symbol", .nat (symbol + 1)), ("span", span.toJson),
      ("alternatives", .array (alternatives.map .nat))]
  | .application rule symbol span children priority action =>
    .object [("type", .text "and"), ("rule", .nat rule), ("symbol", .nat (symbol + 1)),
      ("span", span.toJson), ("children", .array (children.map .nat)), ("priority", .int priority),
      ("action", .optional .text action)]
  | .leaf token span =>
    .object [("type", .text "leaf"), ("token", .nat token), ("span", span.toJson)]

/-- The type of a node and its other fields, or its other fields in their order. -/
def split? : Json → Option (String × Json)
  | .object fields => do
    let type ← match fields.filter (·.1 == "type") with
      | [(_, type)] => type.toText?
      | _ => none
    return (type, .object (fields.filter (·.1 != "type")))
  | .array (type :: items) => do return (← type.toText?, .array items)
  | _ => none

def choiceOfJson? (value : Json) : Option ForestNode := do
  let [symbol, span, alternatives] ← value.record? ["symbol", "span", "alternatives"] | none
  let symbol ← Json.required? symbolOfJson? symbol
  let span ← Json.required? TokenSpan.ofJson? span
  let alternatives ← Json.required? (Json.toList? Json.toWord?) alternatives
  return .choice symbol span alternatives

def applicationOfJson? (value : Json) : Option ForestNode := do
  let [rule, symbol, span, children, priority, action] ←
    value.record? ["rule", "symbol", "span", "children", "priority", "action"] | none
  let rule ← Json.required? Json.toWord? rule
  let symbol ← Json.required? symbolOfJson? symbol
  let span ← Json.required? TokenSpan.ofJson? span
  let children ← Json.required? (Json.toList? Json.toWord?) children
  let priority ← Json.required? Json.toSigned? priority
  let action ← Json.nullable? Json.toText? value action
  return .application rule symbol span children priority action

def leafOfJson? (value : Json) : Option ForestNode := do
  let [token, span] ← value.record? ["token", "span"] | none
  let token ← Json.required? Json.toCount? token
  let span ← Json.required? TokenSpan.ofJson? span
  return .leaf token span

def ofJson? (value : Json) : Option ForestNode := do
  match ← split? value with
  | ("or", fields) => choiceOfJson? fields
  | ("and", fields) => applicationOfJson? fields
  | ("leaf", fields) => leafOfJson? fields
  | _ => none

end ForestNode

namespace Forest

def toJson (forest : Forest) : Json :=
  .object [("nodes", .array (forest.nodes.toList.map ForestNode.toJson)),
    ("root", .optional .nat forest.root), ("token_count", .nat forest.tokenCount)]

def ofJson? (value : Json) : Option Forest := do
  let [nodes, root, tokenCount] ← value.record? ["nodes", "root", "token_count"] | none
  let nodes ← Json.required? (Json.toList? ForestNode.ofJson?) nodes
  let root ← Json.nullable? Json.toWord? value root
  let tokenCount ← Json.required? Json.toCount? tokenCount
  return { nodes := nodes.toArray, root, tokenCount }

end Forest

end Readings
