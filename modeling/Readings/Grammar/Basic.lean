import Readings.Token

/-! Grammars: named and versioned rule sets. Non-terminals are numbered in the order in which they
first stand on a left side, rules in the order in which they were written. -/

namespace Readings

/-- A non-terminal, by its place among the left sides of the grammar. -/
abbrev Symbol := Nat

abbrev RuleId := Nat

/-- What a terminal asks of a token. -/
inductive Terminal where
  /-- The normalized text of the token is this word. -/
  | word (text : String)
  /-- The token is of this kind. -/
  | kind (name : String)
  /-- The token carries this tag. -/
  | tag (name : String)
deriving Repr, DecidableEq, Inhabited

namespace Terminal

def accepts (terminal : Terminal) (token : Token) : Bool :=
  match terminal with
  | .word text => token.normalizedText == text
  | .kind name => token.kind == name
  | .tag name => token.hasTag name

/-- Only a word names the text that has to be typed. -/
def isLiteral : Terminal → Bool
  | .word _ => true
  | _ => false

def normalized : Terminal → Terminal
  | .word text => .word (normalize text)
  | terminal => terminal

def render : Terminal → String
  | .word text => "\"" ++ text ++ "\""
  | .kind name => "<" ++ name ++ ">"
  | .tag name => "#" ++ name

/-- Words come before kinds and kinds before tags; within each the texts are compared. -/
def rank : Terminal → Nat × String
  | .word text => (0, text)
  | .kind name => (1, name)
  | .tag name => (2, name)

def le (a b : Terminal) : Bool :=
  a.rank.1 < b.rank.1 || (a.rank.1 == b.rank.1 && a.rank.2 ≤ b.rank.2)

end Terminal

/-- One element of a right side. -/
inductive Element where
  | nonTerminal (symbol : Symbol)
  | terminal (terminal : Terminal)
deriving Repr, DecidableEq, Inhabited

structure Rule where
  /-- The author's name for the rule; no two rules share one. -/
  name : String
  lhs : Symbol
  rhs : List Element
  priority : Int
  /-- What the caller is to do with a reading that uses the rule. -/
  action : Option String
  description : String
deriving Repr, DecidableEq, Inhabited

/-- A rule with nothing on its right side stands for words left out. -/
def Rule.isElision (rule : Rule) : Bool := rule.rhs.isEmpty

structure GrammarKey where
  name : String
  version : String
deriving Repr, DecidableEq, Inhabited

def GrammarKey.render (key : GrammarKey) : String := key.name ++ "@" ++ key.version

structure Grammar where
  key : GrammarKey
  start : Symbol
  rules : Array Rule
  names : Array String
deriving Repr, DecidableEq, Inhabited

def priorityMin : Int := Int32.minValue.toInt
def priorityMax : Int := Int32.maxValue.toInt

namespace Grammar

def rule? (grammar : Grammar) (id : RuleId) : Option Rule := grammar.rules[id]?

/-- The rule with a number that may not belong to the grammar. -/
def rule (grammar : Grammar) (id : RuleId) : Except Fault Rule :=
  match grammar.rules[id]? with
  | some rule => .ok rule
  | none => .error .unknownRule

/-- The right side of a rule; a rule that is not there has an empty one. -/
def rhs (grammar : Grammar) (id : RuleId) : List Element :=
  match grammar.rules[id]? with
  | some rule => rule.rhs
  | none => []

def lhs? (grammar : Grammar) (id : RuleId) : Option Symbol := (grammar.rules[id]?).map (·.lhs)

def rulesFor (grammar : Grammar) (symbol : Symbol) : List RuleId :=
  (List.range grammar.rules.size).filter fun id => grammar.lhs? id == some symbol

def symbolName? (grammar : Grammar) (symbol : Symbol) : Option String := grammar.names[symbol]?

/-- The name of a non-terminal that may not belong to the grammar. -/
def symbolName (grammar : Grammar) (symbol : Symbol) : Except Fault String :=
  match grammar.names[symbol]? with
  | some name => .ok name
  | none => .error .unknownSymbol

def symbol? (grammar : Grammar) (name : String) : Option Symbol :=
  grammar.names.findIdx? (· == name)

def ruleNamed? (grammar : Grammar) (name : String) : Option RuleId :=
  grammar.rules.findIdx? (·.name == name)

def priorityRange (grammar : Grammar) : Int × Int :=
  grammar.rules.foldl (fun range rule => (min range.1 rule.priority, max range.2 rule.priority))
    (priorityMax, priorityMin)

end Grammar

end Readings
