import Readings.Capped
import Readings.Chart.Build
import Readings.Derivation.Tree
import Readings.Postorder
import Std.Data.HashMap

/-! Derivations read out of a chart. The links of an item say how its recognized elements can be split
into children; the child lists of every item are found after those of the items its links lead to,
and no list grows beyond the limit. -/

namespace Readings

/-- An item in the set at a position. -/
structure Milestone where
  position : Nat
  item : Item
deriving Repr, DecidableEq, Inhabited, Hashable

/-- The complete item of a rule applied from one position to another. -/
def Milestone.complete (grammar : Grammar) (rule : RuleId) (start stop : Nat) : Milestone :=
  ⟨stop, ⟨rule, (grammar.rhs rule).length, start⟩⟩

/-- The item with one element less, in the set at an earlier position. -/
def Milestone.before (milestone : Milestone) (position : Nat) : Milestone :=
  ⟨position, { milestone.item with dot := milestone.item.dot - 1 }⟩

/-- What the children of a milestone are made of, link by link. -/
def Chart.linkSources (grammar : Grammar) (milestone : Milestone) : Link → List Milestone
  | .predicted => []
  | .scanned token => [milestone.before token]
  | .completed split child =>
    [milestone.before split, Milestone.complete grammar child split milestone.position]

def Chart.sources (chart : Chart) (grammar : Grammar) (milestone : Milestone) : List Milestone :=
  if milestone.item.dot = 0 then []
  else (chart.links milestone.position milestone.item).flatMap (Chart.linkSources grammar milestone)

/-- The child lists found so far. -/
structure Extraction.Table where
  children : Std.HashMap Milestone (List (List Tree))
  cut : Bool

namespace Extraction

def Table.empty : Table := ⟨∅, false⟩

def Table.childrenOf (table : Table) (milestone : Milestone) : List (List Tree) :=
  table.children.getD milestone []

def Table.trees (table : Table) (grammar : Grammar) (milestone : Milestone) : List Derivation :=
  let rule := milestone.item.rule
  match grammar.lhs? rule with
  | none => []
  | some lhs =>
    (table.childrenOf milestone).map fun children =>
      { rule, lhs, span := ⟨milestone.item.origin, milestone.position⟩, children }

def Table.offerLink (table : Table) (grammar : Grammar) (limit : Nat) (milestone : Milestone)
    (found : Capped (List Tree)) : Link → Capped (List Tree)
  | .predicted => found
  | .scanned token =>
    found.offerProducts limit (fun first last => first ++ [last])
      (table.childrenOf (milestone.before token)) [Tree.leaf token]
  | .completed split child =>
    found.offerProducts limit (fun first last => first ++ [Derivation.tree last])
      (table.childrenOf (milestone.before split))
      (table.trees grammar (Milestone.complete grammar child split milestone.position))

def Table.collect (table : Table) (chart : Chart) (grammar : Grammar) (limit : Nat)
    (milestone : Milestone) : Capped (List Tree) :=
  if milestone.item.dot = 0 then ⟨[[]], false⟩
  else
    (chart.links milestone.position milestone.item).foldl
      (table.offerLink grammar limit milestone) Capped.empty

def Table.enter (chart : Chart) (grammar : Grammar) (limit : Nat) (table : Table)
    (milestone : Milestone) : Table :=
  let found := table.collect chart grammar limit milestone
  ⟨table.children.insert milestone found.values, table.cut || found.cut⟩

end Extraction

/-- The first derivations of the whole input, at most `limit` but at least one. -/
def Chart.extract (chart : Chart) (grammar : Grammar) (limit : Nat) : Except Fault Selection :=
  if !chart.isSuccess then .ok Selection.none
  else
    let limit := max limit 1
    let goals := (chart.acceptingItems grammar).map fun item => Milestone.mk chart.tokenCount item
    let sources := fun milestone => some (chart.sources grammar milestone)
    match Walk.start.visitAll sources (chart.totalItems + 1) goals with
    | .error _ => .error .circular
    | .ok walk =>
      let table := walk.order.foldl (Extraction.Table.enter chart grammar limit) .empty
      let found := Capped.empty.offer limit (goals.flatMap (table.trees grammar))
      .ok ⟨found.values, table.cut || found.cut⟩

end Readings
