/-! Weights, thresholds and word lists of the scorer. -/

namespace Readings

structure ScoringWeights where
  priority : Float := 0.30
  explicitness : Float := 0.15
  safety : Float := 0.20
  specificity : Float := 0.15
  parsimony : Float := 0.10
  coherence : Float := 0.10
deriving Repr, Inhabited

def ScoringWeights.toList (weights : ScoringWeights) : List Float :=
  [weights.priority, weights.explicitness, weights.safety, weights.specificity, weights.parsimony,
    weights.coherence]

def ScoringWeights.total (weights : ScoringWeights) : Float :=
  weights.priority + weights.explicitness + weights.safety + weights.specificity +
    weights.parsimony + weights.coherence

structure ScoringConfig where
  weights : ScoringWeights := {}
  /-- High confidence needs a top score of at least this. -/
  highThreshold : Float := 0.75
  /-- High confidence needs a lead of at least this. -/
  highMargin : Float := 0.15
  /-- A lead of no more than this is no lead. -/
  ambiguityMargin : Float := 0.05
  /-- Medium confidence needs a top score of at least this. -/
  mediumThreshold : Float := 0.5
  /-- A top score below this calls for a question. -/
  minAcceptable : Float := 0.4
  /-- Actions that destroy what the author of a request has made. -/
  destructiveActions : List String :=
    ["delete", "remove", "clear", "discard", "reset", "overwrite"]
  /-- Actions that leave open what is to be changed. -/
  vagueActions : List String := ["adjust", "change", "modify", "improve", "fix"]
deriving Repr, Inhabited

/-- Whether an action is in a list, or begins with an entry of it and an underscore. -/
def matchesAction (entries : List String) (action : String) : Bool :=
  entries.any fun entry =>
    action == entry || (entry.toList ++ ['_']).isPrefixOf action.toList

namespace ScoringConfig

def isDestructive (config : ScoringConfig) (action : String) : Bool :=
  matchesAction config.destructiveActions action

def isVague (config : ScoringConfig) (action : String) : Bool :=
  matchesAction config.vagueActions action

end ScoringConfig

end Readings
