import Readings.Forest.Basic

/-! Ambiguity points: the choices of a forest in terms of the grammar and the request, graded by how
much the priorities say about them. -/

namespace Readings

/-- How hard an ambiguity is to resolve by priorities alone. -/
inductive Severity where
  /-- No alternative has a priority. -/
  | low
  /-- One alternative has the highest priority. -/
  | medium
  /-- Several alternatives share the highest priority. -/
  | high
deriving Repr, DecidableEq, Inhabited

namespace Severity

def render : Severity → String
  | .low => "low"
  | .medium => "medium"
  | .high => "high"

def ofPriorities (priorities : List Int) : Severity :=
  if priorities.all (· == 0) then .low
  else
    match priorities.max? with
    | none => .low
    | some highest => if priorities.count highest = 1 then .medium else .high

end Severity

structure Alternative where
  node : NodeId
  rule : RuleId
  ruleName : String
  priority : Int
  action : Option String
  description : String
deriving Repr, DecidableEq, Inhabited

structure AmbiguityPoint where
  node : NodeId
  symbol : String
  span : TokenSpan
  textRange : TextRange
  /-- The tokens of the span, with a space between them. -/
  sourceText : String
  alternatives : List Alternative
  severity : Severity
deriving Repr, DecidableEq, Inhabited

def AmbiguityPoint.actions (point : AmbiguityPoint) : List String :=
  (point.alternatives.filterMap (·.action)).eraseDups

/-- The tokens of a span with a space between them; nothing if the span is not within them. -/
def TokenSpan.sourceText (span : TokenSpan) (tokens : Array Token) : String :=
  if span.start ≤ span.stop ∧ span.stop ≤ tokens.size then
    " ".intercalate ((tokens.extract span.start span.stop).toList.map (·.text))
  else ""

namespace Forest

def alternativesAmong (forest : Forest) (grammar : Grammar) : List NodeId →
    Except Fault (List Alternative)
  | [] => .ok []
  | id :: ids =>
    match forest.node? id with
    | some (.application rule _ _ _ priority action) => do
      let definition ← grammar.rule rule
      let rest ← forest.alternativesAmong grammar ids
      return { node := id, rule, ruleName := definition.name, priority, action,
               description := definition.description } :: rest
    | _ => forest.alternativesAmong grammar ids

/-- A choice as an ambiguity point; other nodes are none. -/
def pointAt (forest : Forest) (grammar : Grammar) (tokens : Array Token) (id : NodeId) :
    ForestNode → Except Fault (Option AmbiguityPoint)
  | .choice symbol span alternatives => do
    let alternatives ← forest.alternativesAmong grammar alternatives
    let symbol ← grammar.symbolName symbol
    let textRange ← span.textRange tokens
    return some
      { node := id, symbol, span, textRange, sourceText := span.sourceText tokens, alternatives,
        severity := Severity.ofPriorities (alternatives.map (·.priority)) }
  | _ => .ok none

def ambiguityPoints (forest : Forest) (grammar : Grammar) (tokens : Array Token) :
    Except Fault (List AmbiguityPoint) := do
  let points ← forest.entries.mapM fun (id, node) => forest.pointAt grammar tokens id node
  return points.filterMap id

end Forest

end Readings
