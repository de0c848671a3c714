import Readings.Chart.Basic

/-! Chart construction. The sets are closed from left to right; the entries of a set are processed in
the order in which they were added, and those processed before the current one are its *past*. An item
that waits for a symbol meets the empty completions in its past at once; those found later meet it
when they are processed, as every completion does with the waiting items in the past of its origin. -/

namespace Readings

/-- The sets built so far and the number of items in them. -/
structure ChartState where
  sets : Array ChartSet
  total : Nat
deriving Repr, DecidableEq, Inhabited

namespace ChartState

def initial : ChartState := ⟨#[.empty], 0⟩

/-- The sets built so far, extended by empty ones so that there is one at a position. -/
def reach (state : ChartState) (position : Nat) : ChartState :=
  { state with
    sets := state.sets ++ Array.replicate (position + 1 - state.sets.size) ChartSet.empty }

/-- Adds a link to an item at a position. A new item may exceed a cap, and is left in its set then. -/
def insert (config : ChartConfig) (position : Nat) (state : ChartState) (item : Item) (link : Link) :
    Except (LimitHit × ChartState) ChartState :=
  let state := state.reach position
  let known := (state.sets.getD position .empty).contains item
  let sets := state.sets.modify position fun set => set.insert item link
  if known then .ok { state with sets }
  else
    let size := (sets.getD position .empty).size
    let state : ChartState := ⟨sets, state.total + 1⟩
    if size > config.maxItemsPerSet then .error (⟨position, size, config.maxItemsPerSet⟩, state)
    else if state.total > config.maxTotalItems then
      .error (⟨position, state.total, config.maxTotalItems⟩, state)
    else .ok state

/-- Adds links to several items at a position, one after the other. -/
def insertAll (config : ChartConfig) (position : Nat) :
    ChartState → List (Item × Link) → Except (LimitHit × ChartState) ChartState
  | state, [] => .ok state
  | state, (item, link) :: more =>
    match state.insert config position item link with
    | .ok state => state.insertAll config position more
    | .error hit => .error hit

end ChartState

/-- The items processed before the one at an index, or all items of an earlier set. -/
def ChartState.past (state : ChartState) (position index origin : Nat) : List Item :=
  let set := state.sets.getD origin .empty
  if origin = position then set.items.take index else set.items

/-- What an item waiting for a symbol adds to its set: the rules of the symbol, and itself advanced
over each empty completion of the symbol in its past. -/
def predictions (grammar : Grammar) (state : ChartState) (position index : Nat) (item : Item)
    (symbol : Symbol) : List (Item × Link) :=
  let rules := (grammar.rulesFor symbol).map fun rule => (Item.initial rule position, Link.predicted)
  let empties := (state.past position index position).filter fun earlier =>
    earlier.origin == position && earlier.yields grammar symbol
  rules ++ empties.map fun earlier => (item.advance, .completed position earlier.rule)

/-- What a complete item adds to its set: the items that waited for it at its origin, advanced. -/
def completions (grammar : Grammar) (state : ChartState) (position index : Nat) (item : Item) :
    List (Item × Link) :=
  match grammar.lhs? item.rule with
  | none => []
  | some symbol =>
    ((state.past position index item.origin).filter (Item.waitsFor grammar symbol)).map fun waiter =>
      (waiter.advance, .completed item.origin item.rule)

def scans (tokens : Array Token) (position : Nat) (item : Item) (terminal : Terminal) :
    List (Item × Link) :=
  match tokens[position]? with
  | some token => if terminal.accepts token then [(item.advance, .scanned position)] else []
  | none => []

/-- Processes the item at an index of the set at a position. -/
def processItem (grammar : Grammar) (config : ChartConfig) (tokens : Array Token)
    (position index : Nat) (state : ChartState) (item : Item) :
    Except (LimitHit × ChartState) ChartState :=
  match item.next? grammar with
  | none => state.insertAll config position (completions grammar state position index item)
  | some (.nonTerminal symbol) =>
    state.insertAll config position (predictions grammar state position index item symbol)
  | some (.terminal terminal) =>
    state.insertAll config (position + 1) (scans tokens position item terminal)

/-- Processes the set at a position from an index on, until it has no further items. `fuel` bounds the
number of items processed. -/
def closeFrom (grammar : Grammar) (config : ChartConfig) (tokens : Array Token) (position : Nat) :
    Nat → Nat → ChartState → Except (LimitHit × ChartState) ChartState
  | 0, _, state => .ok state
  | fuel + 1, index, state =>
    match (state.sets.getD position .empty).entries[index]? with
    | none => .ok state
    | some entry =>
      match processItem grammar config tokens position index state entry.item with
      | .error hit => .error hit
      | .ok state => closeFrom grammar config tokens position fuel (index + 1) state

def itemBound (grammar : Grammar) (position : Nat) : Nat :=
  (position + 1) * (grammar.rules.toList.map fun rule => rule.rhs.length + 1).foldr (· + ·) 0

def closeSet (grammar : Grammar) (config : ChartConfig) (tokens : Array Token) (position : Nat)
    (state : ChartState) : Except (LimitHit × ChartState) ChartState :=
  closeFrom grammar config tokens position (itemBound grammar position + 1) 0 state

def expectedIn (grammar : Grammar) (set : ChartSet) : List Terminal :=
  let terminals := set.items.filterMap fun item =>
    match item.next? grammar with
    | some (.terminal terminal) => some terminal
    | _ => none
  (terminals.mergeSort Terminal.le).eraseReps

/-- Closes the sets from a position on, with `left` tokens behind it. The parse ends where no item
leads to the next set. -/
def fillFrom (grammar : Grammar) (config : ChartConfig) (tokens : Array Token) (position : Nat) :
    Nat → ChartState → ChartState × ChartOutcome
  | left, state =>
    match closeSet grammar config tokens position state with
    | .error (hit, state) => (state, .limitExceeded hit)
    | .ok state =>
      let set := state.sets.getD position .empty
      match left with
      | 0 =>
        if set.items.any (Chart.isAccepting grammar) then (state, .success)
        else (state, .failed position (expectedIn grammar set))
      | left + 1 =>
        if state.sets.size ≤ position + 1 then (state, .failed position (expectedIn grammar set))
        else fillFrom grammar config tokens (position + 1) left state

def Chart.build (grammar : Grammar) (config : ChartConfig) (tokens : Array Token) : Chart :=
  let starts := (grammar.rulesFor grammar.start).map fun rule => (Item.initial rule 0, Link.predicted)
  let (state, outcome) :=
    match ChartState.initial.insertAll config 0 starts with
    | .error (hit, state) => (state, ChartOutcome.limitExceeded hit)
    | .ok state => fillFrom grammar config tokens 0 tokens.size state
  { grammar := grammar.key, start := grammar.start, sets := state.sets, tokenCount := tokens.size,
    outcome }

end Readings
