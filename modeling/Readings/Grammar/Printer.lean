import Readings.Grammar.Basic
import Readings.Text.Quoted
import Readings.Decimal.Fixed

/-! Grammars as text: a rule, the list of all rules, and a one-line summary. -/

namespace Readings

def padRight (width : Nat) (text : String) : String :=
  text ++ String.ofList (List.replicate (width - text.length) ' ')

namespace Grammar

/-- An element by its name; a symbol that is not there has none. -/
def renderElement (grammar : Grammar) : Element → String
  | .nonTerminal symbol => (grammar.symbolName? symbol).getD ""
  | .terminal terminal => terminal.render

def renderSymbol (grammar : Grammar) (symbol : Symbol) : String :=
  (grammar.symbolName? symbol).getD ""

def renderElements (grammar : Grammar) (elements : List Element) : String :=
  if elements.isEmpty then "ε" else " ".intercalate (elements.map grammar.renderElement)

def renderRule (grammar : Grammar) (rule : Rule) : String :=
  grammar.renderSymbol rule.lhs ++ " -> " ++ grammar.renderElements rule.rhs

def describeRule (grammar : Grammar) (rule : Rule) : String :=
  "  " ++ padRight 16 rule.name ++ " " ++ grammar.renderRule rule ++
    " (p" ++ toString rule.priority ++ ")" ++
    (match rule.action with
     | some action => " => " ++ action
     | none => "") ++ "\n"

def describe (grammar : Grammar) : String :=
  let (low, high) := grammar.priorityRange
  grammar.key.render ++ ": " ++ toString grammar.rules.size ++ " rules, start " ++
    grammar.renderSymbol grammar.start ++ ", priorities " ++ toString low ++ "..=" ++ toString high ++
    "\n" ++ String.join (grammar.rules.toList.map grammar.describeRule)

/-- The key, the start symbol and the number of rules, with the names quoted. -/
def summary (grammar : Grammar) : String :=
  "Grammar \x7b key: GrammarKey \x7b name: " ++ Text.quote grammar.key.name ++ ", version: " ++
    Text.quote grammar.key.version ++ " \x7d, start: " ++
    Text.quote (grammar.renderSymbol grammar.start) ++ ", rules: " ++ toString grammar.rules.size ++
    " \x7d"

end Grammar

end Readings
