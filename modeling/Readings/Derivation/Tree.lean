import Readings.Grammar.Basic

/-! Derivation trees. A node applies a rule to the tokens of its span and has a child for every element
of the rule's right side; a leaf is a token. Trees may be written by hand, so `isSound` checks whether
the children tile the span of every node. -/

namespace Readings

/-- A token, or a rule applied to the tokens of a span. -/
inductive Tree where
  | leaf (token : Nat)
  | node (rule : RuleId) (lhs : Symbol) (span : TokenSpan) (children : List Tree)
deriving Repr, Inhabited

/-- A rule applied to a whole input: a tree that is not a single token. -/
structure Derivation where
  rule : RuleId
  lhs : Symbol
  span : TokenSpan
  children : List Tree
deriving Repr, Inhabited

def Derivation.tree (derivation : Derivation) : Tree :=
  .node derivation.rule derivation.lhs derivation.span derivation.children

def Tree.toDerivation? : Tree → Option Derivation
  | .leaf _ => none
  | .node rule lhs span children => some { rule, lhs, span, children }

structure Selection where
  derivations : List Derivation
  /-- There are more. -/
  truncated : Bool
deriving Repr, Inhabited

def Selection.none : Selection := ⟨[], false⟩

def TokenSpan.single (token : Nat) : Except Fault TokenSpan := do
  return ⟨token, ← addCounts token 1⟩

namespace Tree

def token? : Tree → Option Nat
  | .leaf token => some token
  | .node _ _ _ _ => none

def span : Tree → Except Fault TokenSpan
  | .leaf token => TokenSpan.single token
  | .node _ _ span _ => .ok span

mutual
def nodes : Tree → List Derivation
  | .leaf _ => []
  | .node rule lhs span children => { rule, lhs, span, children } :: nodesOf children
def nodesOf : List Tree → List Derivation
  | [] => []
  | tree :: trees => nodes tree ++ nodesOf trees
end

mutual
def yields : Tree → List Nat
  | .leaf token => [token]
  | .node _ _ _ children => yieldsOf children
def yieldsOf : List Tree → List Nat
  | [] => []
  | tree :: trees => yields tree ++ yieldsOf trees
end

mutual
/-- Whether every node has a child for each element of its rule, and the spans of the children follow
one another from the start of its own span to the end. -/
def isSound (grammar : Grammar) : Tree → Except Fault Bool
  | .leaf _ => .ok true
  | .node rule _ span children => do
    let rule ← grammar.rule rule
    if children.length = rule.rhs.length then isTiled grammar span.stop span.start children
    else return false
def isTiled (grammar : Grammar) (stop cursor : Nat) : List Tree → Except Fault Bool
  | [] => .ok (cursor == stop)
  | tree :: trees => do
    let span ← tree.span
    if span.start = cursor ∧ span.start ≤ span.stop then
      if ← isSound grammar tree then isTiled grammar stop span.stop trees else return false
    else return false
end

end Tree

namespace Derivation

def nodes (derivation : Derivation) : List Derivation := derivation.tree.nodes

def rules (derivation : Derivation) : List RuleId := derivation.nodes.map (·.rule)

/-- The tokens among the children. -/
def ownTokens (derivation : Derivation) : List Nat := derivation.children.filterMap Tree.token?

/-- The tokens at all nodes, in ascending order. -/
def leaves (derivation : Derivation) : List Nat := (derivation.nodes.flatMap ownTokens).mergeSort

/-- Whether the derivation covers exactly the first `tokenCount` tokens, and so does every part of it
its own span. -/
def isSound (grammar : Grammar) (tokenCount : Nat) (derivation : Derivation) : Except Fault Bool :=
  if derivation.span = ⟨0, tokenCount⟩ then derivation.tree.isSound grammar else .ok false

end Derivation

end Readings
