import Readings.Chart.Item

/-! Charts: a set of items for every position between tokens, and what came of the parse. -/

namespace Readings

structure ChartConfig where
  maxItemsPerSet : Nat := 10000
  maxTotalItems : Nat := 200000
  maxDerivations : Nat := 64
deriving Repr, DecidableEq, Inhabited

def ChartConfig.withMaxDerivations (config : ChartConfig) (limit : Nat) : ChartConfig :=
  { config with maxDerivations := max limit 1 }

/-- An item cap that was exceeded in the set at a position. -/
structure LimitHit where
  position : Nat
  items : Nat
  limit : Nat
deriving Repr, DecidableEq, Inhabited

inductive ChartOutcome where
  | success
  /-- No reading exists. `position` is the first place without a way on, and `expected` are the
  terminals that would have gone on from there. -/
  | failed (position : Nat) (expected : List Terminal)
  | limitExceeded (hit : LimitHit)
deriving Repr, DecidableEq, Inhabited

structure Chart where
  grammar : GrammarKey
  start : Symbol
  sets : Array ChartSet
  tokenCount : Nat
  outcome : ChartOutcome
deriving Repr, DecidableEq, Inhabited

namespace Chart

def isSuccess (chart : Chart) : Bool := chart.outcome == .success

def isLimitExceeded (chart : Chart) : Bool :=
  match chart.outcome with
  | .limitExceeded _ => true
  | _ => false

def totalItems (chart : Chart) : Nat := (chart.sets.toList.map (·.size)).foldr (· + ·) 0

def links (chart : Chart) (position : Nat) (item : Item) : List Link :=
  match chart.sets[position]? with
  | some set => set.links item
  | none => []

/-- Whether an item in the last set is a complete reading of the whole input. -/
def isAccepting (grammar : Grammar) (item : Item) : Bool :=
  item.origin == 0 && item.yields grammar grammar.start

def acceptingItems (chart : Chart) (grammar : Grammar) : List Item :=
  match chart.sets[chart.tokenCount]? with
  | some last =>
    last.items.filter fun item => item.origin == 0 && item.yields grammar chart.start
  | none => []

end Chart

end Readings
