import Readings.Derivation.Tree
import Readings.Score.Config
import Readings.Token

/-! What is measured on a derivation. A factor gives a value, of which the part between zero and one
counts, and has a weight. -/

namespace Readings

structure Discourse where
  /-- The latest action is the last. -/
  recentActions : List String := []
  focus : Option String := none
deriving Repr, DecidableEq, Inhabited

def Discourse.mentions (discourse : Discourse) (action : String) : Bool :=
  discourse.recentActions.contains action

structure Application where
  node : Derivation
  rule : Rule

structure Evidence where
  grammar : Grammar
  /-- The request. -/
  tokens : List Token
  config : ScoringConfig
  discourse : Option Discourse
  /-- The rule applications, each before those below it. -/
  applications : List Application

namespace Evidence

def ofDerivation (grammar : Grammar) (tokens : List Token) (config : ScoringConfig)
    (discourse : Option Discourse) (derivation : Derivation) : Except Fault Evidence := do
  let applications ← derivation.nodes.mapM fun node => do return ⟨node, ← grammar.rule node.rule⟩
  return { grammar, tokens, config, discourse, applications }

def actions (evidence : Evidence) : List String :=
  evidence.applications.filterMap fun application => application.rule.action

end Evidence

structure Factor where
  name : String
  weight : Float
  evaluate : Evidence → Float

namespace Factor

/-- The value of a factor that has nothing to measure. -/
def neutral : Float := 0.5

def ratio (part whole : Nat) : Float := part.toFloat / whole.toFloat

/-- The sum of values, taken from left to right; that of none is a negative zero. -/
def sum (values : List Float) : Float := values.foldl (· + ·) (-0.0)

/-- The mean priority of the rules applied, in relation to the priorities of the grammar. -/
def priority (evidence : Evidence) : Float :=
  let (low, high) := evidence.grammar.priorityRange
  if high ≤ low then neutral
  else
    let priorities := evidence.applications.map fun application =>
      Float.ofInt application.rule.priority
    let mean := sum priorities / priorities.length.toFloat
    (mean - Float.ofInt low) / (Float.ofInt high - Float.ofInt low)

def isLiteral : Element → Bool
  | .terminal terminal => terminal.isLiteral
  | .nonTerminal _ => false

def isToken : Tree → Bool
  | .leaf _ => true
  | .node _ _ _ _ => false

/-- The share of the tokens that the grammar asks for by word. -/
def explicitness (evidence : Evidence) : Float :=
  let elements := evidence.applications.flatMap fun application =>
    ((application.node.children.zip application.rule.rhs).filter fun (child, _) =>
      isToken child).map (·.2)
  if elements.isEmpty then neutral else ratio (elements.countP isLiteral) elements.length

def shareWithout (isListed : String → Bool) (evidence : Evidence) : Float :=
  let actions := evidence.actions
  if actions.isEmpty then 1.0 else 1.0 - ratio (actions.countP isListed) actions.length

def safety (evidence : Evidence) : Float :=
  shareWithout evidence.config.isDestructive evidence

def specificity (evidence : Evidence) : Float :=
  shareWithout evidence.config.isVague evidence

def parsimony (evidence : Evidence) : Float :=
  let elisions := evidence.applications.countP fun application => application.rule.isElision
  1.0 / (1.0 + elisions.toFloat)

def coherence (evidence : Evidence) : Float :=
  match evidence.discourse with
  | none => neutral
  | some discourse =>
    let actions := evidence.actions
    if discourse.recentActions.isEmpty || actions.isEmpty then neutral
    else ratio (actions.countP discourse.mentions) actions.length

def builtIn (weights : ScoringWeights) : List Factor :=
  [⟨"priority", weights.priority, priority⟩, ⟨"explicitness", weights.explicitness, explicitness⟩,
   ⟨"safety", weights.safety, safety⟩, ⟨"specificity", weights.specificity, specificity⟩,
   ⟨"parsimony", weights.parsimony, parsimony⟩, ⟨"coherence", weights.coherence, coherence⟩]

/-- A factor with a fixed value. If a rule is named, only derivations that start with it have the value
and others have zero. -/
def fixed (name : String) (weight value : Float) (rule : Option String) : Factor where
  name := name
  weight := weight
  evaluate := fun evidence =>
    match rule with
    | none => value
    | some ruleName =>
      match evidence.applications with
      | first :: _ => if first.rule.name == ruleName then value else 0.0
      | [] => 0.0

end Factor

end Readings
