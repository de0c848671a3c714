import Readings.Derivation.Tree
import Readings.Grammar.Printer

/-! Derivations as text: nested brackets, an indented tree, and the steps of the leftmost derivation. -/

namespace Readings

def Token.textAt (tokens : Array Token) (index : Nat) : String :=
  match tokens[index]? with
  | some token => token.text
  | none => "?"

def indentation (depth : Nat) : String := String.ofList (List.replicate (2 * depth) ' ')

def renderAction : Option String → String
  | some action => " => " ++ action
  | none => ""

namespace Tree

mutual
def bracketed (grammar : Grammar) (tokens : Array Token) : Tree → Except Fault String
  | .leaf token => .ok (Token.textAt tokens token)
  | .node _ lhs _ children => do
    let name ← grammar.symbolName lhs
    return "(" ++ name ++ (← bracketedAll grammar tokens children) ++ ")"
def bracketedAll (grammar : Grammar) (tokens : Array Token) : List Tree → Except Fault String
  | [] => .ok ""
  | tree :: trees => do
    let first ← bracketed grammar tokens tree
    return " " ++ first ++ (← bracketedAll grammar tokens trees)
end

mutual
/-- One line for every rule application and every token, indented by depth. -/
def render (grammar : Grammar) (tokens : Array Token) (depth : Nat) : Tree → Except Fault String
  | .leaf token => .ok (indentation depth ++ Text.quote (Token.textAt tokens token) ++ "\n")
  | .node rule lhs span children => do
    let rule ← grammar.rule rule
    let name ← grammar.symbolName lhs
    let line := indentation depth ++ name ++ " " ++ span.render ++ " " ++ rule.name ++
      renderAction rule.action ++ "\n"
    return line ++ (← renderAll grammar tokens (depth + 1) children)
def renderAll (grammar : Grammar) (tokens : Array Token) (depth : Nat) :
    List Tree → Except Fault String
  | [] => .ok ""
  | tree :: trees => do
    let first ← render grammar tokens depth tree
    return first ++ (← renderAll grammar tokens depth trees)
end

/-- Replaces the first tree of a form that is not a token by its children. -/
def expandLeftmost? : List Tree → Option (List Tree)
  | [] => none
  | .leaf token :: trees => (expandLeftmost? trees).map (.leaf token :: ·)
  | .node _ _ _ children :: trees => some (children ++ trees)

/-- The forms that lead from a form to tokens only, the form itself included; `fuel` bounds the number
of steps. -/
def formsFrom : Nat → List Tree → List (List Tree)
  | 0, form => [form]
  | fuel + 1, form =>
    match expandLeftmost? form with
    | some next => form :: formsFrom fuel next
    | none => [form]

/-- A tree that still has to be expanded shows as the symbol it stands for. -/
def renderPending (grammar : Grammar) (tokens : Array Token) : Tree → Except Fault String
  | .leaf token => .ok (Token.textAt tokens token)
  | .node _ lhs _ _ => grammar.symbolName lhs

def renderForm (grammar : Grammar) (tokens : Array Token) (form : List Tree) :
    Except Fault String := do
  let parts ← form.mapM (renderPending grammar tokens)
  return if parts.isEmpty then "ε" else " ".intercalate parts

end Tree

namespace Derivation

def bracketed (grammar : Grammar) (tokens : Array Token) (derivation : Derivation) :
    Except Fault String :=
  derivation.tree.bracketed grammar tokens

def render (grammar : Grammar) (tokens : Array Token) (derivation : Derivation) :
    Except Fault String :=
  derivation.tree.render grammar tokens 0

/-- The forms of the leftmost derivation; each step applies one rule. -/
def forms (derivation : Derivation) : List (List Tree) :=
  Tree.formsFrom derivation.nodes.length [derivation.tree]

/-- The steps of the leftmost derivation, from the start symbol to the tokens. -/
def trace (grammar : Grammar) (tokens : Array Token) (derivation : Derivation) :
    Except Fault (List String) :=
  derivation.forms.mapM (Tree.renderForm grammar tokens)

end Derivation

end Readings
