import Readings.Grammar.Cycle

/-! Building grammars. An author writes rules over names; building numbers the names, normalizes the
words and refuses what no parser could use. -/

namespace Readings

/-- An element of a right side as an author writes it. -/
inductive ElementDraft where
  | nonTerminal (name : String)
  | word (text : String)
  | kind (name : String)
  | tag (name : String)
deriving Repr, DecidableEq, Inhabited

structure RuleDraft where
  /-- Without a name the rule is called by its left side and its place. -/
  name : Option String
  lhs : String
  rhs : List ElementDraft
  priority : Int
  action : Option String
  description : String
deriving Repr, DecidableEq, Inhabited

structure GrammarDraft where
  key : GrammarKey
  start : Option String
  rules : List RuleDraft
deriving Repr, DecidableEq, Inhabited

inductive GrammarError where
  | empty (key : GrammarKey)
  | missingStart
  | undefinedStart (name : String)
  | undefinedSymbol (rule : String) (symbol : String)
  | duplicateRule (name : String)
  | cycle (names : List String)
  | tooManyRules
deriving Repr, DecidableEq

namespace GrammarError

def kind : GrammarError → String
  | .empty _ => "Empty"
  | .missingStart => "MissingStart"
  | .undefinedStart _ => "UndefinedStart"
  | .undefinedSymbol _ _ => "UndefinedSymbol"
  | .duplicateRule _ => "DuplicateRule"
  | .cycle _ => "Cycle"
  | .tooManyRules => "TooManyRules"

def message : GrammarError → String
  | .empty key => "Grammar " ++ key.render ++ " has no rules"
  | .missingStart => "Missing start symbol"
  | .undefinedStart name => "Start symbol " ++ name ++ " has no rules"
  | .undefinedSymbol rule symbol =>
    "Rule " ++ rule ++ " references undefined non-terminal " ++ symbol
  | .duplicateRule name => "Duplicate rule name " ++ name
  | .cycle names =>
    "Non-terminal derives itself without consuming input: " ++ " -> ".intercalate names
  | .tooManyRules => "Grammar has more rules than rule ids can address"

def code : GrammarError → String
  | .empty _ => "grammar::empty"
  | .missingStart => "grammar::missing_start"
  | .undefinedStart _ => "grammar::undefined_start"
  | .undefinedSymbol _ _ => "grammar::undefined_symbol"
  | .duplicateRule _ => "grammar::duplicate_rule"
  | .cycle _ => "grammar::cycle"
  | .tooManyRules => "grammar::too_many_rules"

def help? : GrammarError → Option String
  | .undefinedSymbol _ symbol =>
    some ("add a rule for " ++ symbol ++ " or reference a terminal instead")
  | .cycle _ => some "cyclic derivations admit infinitely many parses of the same span"
  | _ => none

end GrammarError

/-- Rules are numbered below this bound. -/
def ruleBound : Nat := UInt32.size

def RuleDraft.nameAt (draft : RuleDraft) (index : Nat) : String :=
  draft.name.getD (draft.lhs ++ "#" ++ toString index)

/-- The left sides of the drafts, each once, in the order in which they appear. -/
def symbolNames (drafts : List RuleDraft) : List String := (drafts.map (·.lhs)).eraseDups

def ElementDraft.resolve (names : List String) : ElementDraft → Except String Element
  | .nonTerminal name =>
    match names.findIdx? (· == name) with
    | some symbol => .ok (.nonTerminal symbol)
    | none => .error name
  | .word text => .ok (.terminal (Terminal.word text).normalized)
  | .kind name => .ok (.terminal (.kind name))
  | .tag name => .ok (.terminal (.tag name))

def resolveElements (names : List String) : List ElementDraft → Except String (List Element)
  | [] => .ok []
  | draft :: drafts => do
    let element ← draft.resolve names
    let elements ← resolveElements names drafts
    return element :: elements

/-- Resolves one draft. Its name is checked against those in use before its elements are looked at. -/
def RuleDraft.resolve (names : List String) (index : Nat) (used : List String) (draft : RuleDraft) :
    Except GrammarError Rule :=
  let name := draft.nameAt index
  if index ≥ ruleBound then .error .tooManyRules
  else if used.contains name then .error (.duplicateRule name)
  else
    match resolveElements names draft.rhs with
    | .error symbol => .error (.undefinedSymbol name symbol)
    | .ok rhs =>
      .ok { name, lhs := names.idxOf draft.lhs, rhs, priority := draft.priority,
            action := draft.action, description := draft.description }

/-- Resolves the drafts from a place on, with the names used before it. -/
def resolveRules (names : List String) (index : Nat) (used : List String) :
    List RuleDraft → Except GrammarError (List Rule)
  | [] => .ok []
  | draft :: drafts => do
    let rule ← draft.resolve names index used
    let rules ← resolveRules names (index + 1) (rule.name :: used) drafts
    return rule :: rules

/-- Builds the grammar of a draft, or says what is wrong first. -/
def GrammarDraft.build (draft : GrammarDraft) : Except GrammarError Grammar :=
  if draft.rules.isEmpty then .error (.empty draft.key)
  else
    match draft.start with
    | none => .error .missingStart
    | some startName =>
      let names := symbolNames draft.rules
      match names.findIdx? (· == startName) with
      | none => .error (.undefinedStart startName)
      | some start =>
        match resolveRules names 0 [] draft.rules with
        | .error cause => .error cause
        | .ok rules =>
          match unitCycle? rules with
          | some cycle => .error (.cycle (cycle.map fun symbol => names.getD symbol ""))
          | none => .ok { key := draft.key, start, rules := rules.toArray, names := names.toArray }

end Readings
