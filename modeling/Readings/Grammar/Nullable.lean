import Readings.Grammar.Basic

/-! The non-terminals that derive the empty string, as the least set that holds every left side whose
right side lies in the set. -/

namespace Readings

def Element.isNullable (known : List Symbol) : Element → Bool
  | .nonTerminal symbol => known.contains symbol
  | .terminal _ => false

/-- One pass over the rules, in which a symbol found counts at once for the rules behind it. -/
def nullablePass : List Rule → List Symbol → List Symbol
  | [], known => known
  | rule :: rules, known =>
    nullablePass rules <|
      if known.contains rule.lhs then known
      else if rule.rhs.all (Element.isNullable known) then rule.lhs :: known
      else known

/-- Repeats the pass until it finds nothing new, at most `fuel` times. -/
def nullableFrom (rules : List Rule) : Nat → List Symbol → List Symbol
  | 0, known => known
  | fuel + 1, known =>
    let next := nullablePass rules known
    if next.length = known.length then known else nullableFrom rules fuel next

/-- The nullable symbols. Every pass but the last finds the left side of another rule. -/
def nullableSymbols (rules : List Rule) : List Symbol := nullableFrom rules (rules.length + 1) []

def Grammar.isNullable (grammar : Grammar) (symbol : Symbol) : Bool :=
  (nullableSymbols grammar.rules.toList).contains symbol

end Readings
