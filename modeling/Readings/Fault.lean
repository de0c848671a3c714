/-! Requests that have no answer. An operation that can be asked for one of these says so in its
result type, and its callers pass the fault on. -/

namespace Readings

inductive Fault where
  /-- A count or an offset leaves the range it is kept in. -/
  | outOfRange
  | unknownRule
  | unknownSymbol
  | danglingNode
  /-- Nodes that lead back to themselves. -/
  | circular
deriving Repr, DecidableEq, Inhabited

/-- Counts and token positions stay below this bound. -/
def countBound : Nat := UInt64.size

def addCounts (a b : Nat) : Except Fault Nat :=
  if a + b < countBound then .ok (a + b) else .error .outOfRange

end Readings
