import Readings.Grammar.Printer

/-! Chart items and the sets that hold them. An item is a rule with the elements recognized so far
marked by a dot, together with the position where the rule started. Each item of a set carries the
links by which it got there. -/

namespace Readings

structure Item where
  rule : RuleId
  dot : Nat
  origin : Nat
deriving Repr, DecidableEq, Inhabited, Hashable

namespace Item

def initial (rule : RuleId) (origin : Nat) : Item := ⟨rule, 0, origin⟩

def advance (item : Item) : Item := { item with dot := item.dot + 1 }

def next? (grammar : Grammar) (item : Item) : Option Element := (grammar.rhs item.rule)[item.dot]?

def isComplete (grammar : Grammar) (item : Item) : Bool :=
  decide ((grammar.rhs item.rule).length ≤ item.dot)

def waitsFor (grammar : Grammar) (symbol : Symbol) (item : Item) : Bool :=
  item.next? grammar == some (.nonTerminal symbol)

def yields (grammar : Grammar) (symbol : Symbol) (item : Item) : Bool :=
  item.isComplete grammar && grammar.lhs? item.rule == some symbol

def describe (grammar : Grammar) (item : Item) : String :=
  let elements := (grammar.rhs item.rule).map fun element => " " ++ grammar.renderElement element
  let lhs := ((grammar.lhs? item.rule).bind grammar.symbolName?).getD ""
  lhs ++ " ->" ++ String.join (elements.take item.dot) ++ " •" ++
    String.join (elements.drop item.dot) ++ ", " ++ toString item.origin

def render (item : Item) : String :=
  "(r" ++ toString item.rule ++ " @" ++ toString item.dot ++ " from " ++ toString item.origin ++ ")"

end Item

/-- How an item came into its set. -/
inductive Link where
  | predicted
  /-- The item with the dot one place before took this token. -/
  | scanned (token : Nat)
  /-- The item with the dot one place before, in the set at `split`, waited for a symbol that the rule
  `child` recognized from there up to this set. -/
  | completed (split : Nat) (child : RuleId)
deriving Repr, DecidableEq, Inhabited

/-- An item of a set with the links that lead to it, in the order in which they were found. -/
structure Entry where
  item : Item
  links : List Link
deriving Repr, DecidableEq, Inhabited

/-- The items recognized up to one position, each once, in the order in which they were found. -/
structure ChartSet where
  entries : Array Entry
deriving Repr, DecidableEq, Inhabited

namespace ChartSet

def empty : ChartSet := ⟨#[]⟩

def size (set : ChartSet) : Nat := set.entries.size

def items (set : ChartSet) : List Item := set.entries.toList.map (·.item)

def find? (set : ChartSet) (item : Item) : Option Nat := set.entries.findIdx? (·.item == item)

def contains (set : ChartSet) (item : Item) : Bool := (set.find? item).isSome

/-- The links to an item; there are none to an item that is not in the set. -/
def links (set : ChartSet) (item : Item) : List Link :=
  match set.entries.find? (·.item == item) with
  | some entry => entry.links
  | none => []

def Entry.addLink (link : Link) (entry : Entry) : Entry :=
  if entry.links.contains link then entry else { entry with links := entry.links ++ [link] }

/-- Adds a link to an item, and the item itself if the set does not hold it. -/
def insert (set : ChartSet) (item : Item) (link : Link) : ChartSet :=
  match set.find? item with
  | some index => ⟨set.entries.modify index (Entry.addLink link)⟩
  | none => ⟨set.entries.push ⟨item, [link]⟩⟩

end ChartSet

end Readings
