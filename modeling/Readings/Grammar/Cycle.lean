import Readings.Grammar.Nullable

/-! Unit cycles. There is an edge from `A` to `B` when a rule of `A` has a `B` between elements that
all derive the empty string. A cycle of edges lets `A` derive itself without a token, and the same
words would have infinitely many trees. -/

namespace Readings

/-- The non-terminals of a right side that are alone once the elements around them derive the empty
string. `before` tells whether everything in front does. -/
def soleSymbols (nullable : List Symbol) (before : Bool) : List Element → List Symbol
  | [] => []
  | element :: rest =>
    let here := match element with
      | .nonTerminal symbol =>
        if before && rest.all (Element.isNullable nullable) then [symbol] else []
      | .terminal _ => []
    here ++ soleSymbols nullable (before && element.isNullable nullable) rest

/-- The targets of the edges from a symbol, each once, in the order of the rules. -/
def unitTargets (rules : List Rule) (nullable : List Symbol) (symbol : Symbol) : List Symbol :=
  ((rules.filter (·.lhs == symbol)).flatMap fun rule => soleSymbols nullable true rule.rhs).eraseDups

mutual
/-- Follows the edges from a symbol depth first. `path` leads to the symbol and `done` holds what no
cycle can be reached from; the answer is a cycle or the extended `done`. -/
def visitSymbol (edges : Symbol → List Symbol) :
    Nat → List Symbol → List Symbol → Symbol → Except (List Symbol) (List Symbol)
  | 0, _, done, _ => .ok done
  | fuel + 1, path, done, symbol =>
    if done.contains symbol then .ok done
    else if path.contains symbol then .error (path.dropWhile (· != symbol) ++ [symbol])
    else
      match visitSymbols edges fuel (path ++ [symbol]) done (edges symbol) with
      | .ok done => .ok (symbol :: done)
      | .error cycle => .error cycle
def visitSymbols (edges : Symbol → List Symbol) :
    Nat → List Symbol → List Symbol → List Symbol → Except (List Symbol) (List Symbol)
  | _, _, done, [] => .ok done
  | fuel, path, done, symbol :: symbols =>
    match visitSymbol edges fuel path done symbol with
    | .ok done => visitSymbols edges fuel path done symbols
    | .error cycle => .error cycle
end

/-- The first unit cycle met when the left sides are followed in order. A path holds every symbol at
most once, so its length is bounded by the number of left sides. -/
def unitCycle? (rules : List Rule) : Option (List Symbol) :=
  let nullable := nullableSymbols rules
  let symbols := (rules.map (·.lhs)).eraseDups
  match visitSymbols (unitTargets rules nullable) (symbols.length + 2) [] [] symbols with
  | .ok _ => none
  | .error cycle => some cycle

end Readings
