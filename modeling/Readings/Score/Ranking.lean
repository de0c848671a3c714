import Readings.Decimal.Binary
import Readings.Score.Factor

/-! Rankings. The score of a derivation is the weighted sum of its factors; derivations are sorted by
score, and the top score and its lead tell how sure the ranking is of its winner. -/

namespace Readings

/-- How sure a ranking is of its winner. -/
inductive Confidence where
  | high
  | medium
  | low
  /-- The first two are too close. -/
  | ambiguous
deriving Repr, DecidableEq, Inhabited

def Confidence.render : Confidence → String
  | .high => "high"
  | .medium => "medium"
  | .low => "low"
  | .ambiguous => "ambiguous"

structure FactorScore where
  name : String
  value : Float
  weight : Float
deriving Repr, Inhabited

def FactorScore.contribution (factor : FactorScore) : Float := factor.value * factor.weight

/-- A derivation's score and what it is made of. -/
structure Scored where
  /-- The place of the derivation in the list that was ranked. -/
  derivation : Nat
  score : Float
  factors : List FactorScore
deriving Repr, Inhabited

def Scored.factor? (scored : Scored) (name : String) : Option FactorScore :=
  scored.factors.find? (·.name == name)

/-- The part of a value between zero and one; a value that is no number counts as zero. -/
def clampUnit (x : Float) : Float :=
  if x.isNaN then 0.0 else if x < 0.0 then 0.0 else if 1.0 < x then 1.0 else x

def rawTotal (factors : List FactorScore) : Float :=
  Factor.sum (factors.map FactorScore.contribution)

structure RankedParse where
  /-- The first has rank one. -/
  rank : Nat
  scored : Scored
  confidence : Confidence
  needsClarification : Bool
deriving Repr, Inhabited

structure Ranking where
  parses : List RankedParse
  confidence : Confidence
  /-- Whether to ask what was meant. -/
  needsClarification : Bool
deriving Repr

namespace Ranking

def empty : Ranking := ⟨[], .low, true⟩

instance : Inhabited Ranking := ⟨empty⟩

def best? (ranking : Ranking) : Option RankedParse := ranking.parses.head?

def margin? (ranking : Ranking) : Option Float :=
  match ranking.parses with
  | first :: second :: _ => some (first.scored.score - second.scored.score)
  | _ => none

end Ranking

def ScoringConfig.confidence (config : ScoringConfig) (top : Float) (second : Option Float) :
    Confidence :=
  let lead := second.map fun second => top - second
  if lead.any (· ≤ config.ambiguityMargin) then .ambiguous
  else if config.highThreshold ≤ top && lead.all (config.highMargin ≤ ·) then .high
  else if config.mediumThreshold ≤ top then .medium
  else .low

structure Scorer where
  config : ScoringConfig := {}
  /-- Factors besides the built-in ones. -/
  extraFactors : List Factor := []

namespace Scorer

def factors (scorer : Scorer) : List Factor :=
  Factor.builtIn scorer.config.weights ++ scorer.extraFactors

def scoreOne (scorer : Scorer) (grammar : Grammar) (tokens : List Token)
    (discourse : Option Discourse) (derivation : Derivation) (index : Nat) : Except Fault Scored := do
  let evidence ← Evidence.ofDerivation grammar tokens scorer.config discourse derivation
  let factors := scorer.factors.map fun factor =>
    { name := factor.name, value := clampUnit (factor.evaluate evidence), weight := factor.weight }
  return { derivation := index, score := clampUnit (rawTotal factors), factors }

def scoreAll (scorer : Scorer) (grammar : Grammar) (tokens : List Token)
    (discourse : Option Discourse) (derivations : List Derivation) : Except Fault (List Scored) :=
  derivations.zipIdx.mapM fun (derivation, index) =>
    scorer.scoreOne grammar tokens discourse derivation index

/-- Ranks scored derivations: the highest score first, equal scores in the order given. -/
def rankScored (config : ScoringConfig) (scored : List Scored) : Ranking :=
  match scored.mergeSort fun a b => Decimal.atMost b.score a.score with
  | [] => .empty
  | first :: rest =>
    let confidence := config.confidence first.score (rest.head?.map (·.score))
    let needsClarification := confidence == .ambiguous || first.score < config.minAcceptable
    { parses := (first :: rest).zipIdx.map fun (scored, index) =>
        { rank := index + 1, scored, confidence, needsClarification },
      confidence, needsClarification }

/-- Ranks the derivations of a request, whose tokens are there for the extra factors to look at. -/
def rank (scorer : Scorer) (grammar : Grammar) (discourse : Option Discourse)
    (derivations : List Derivation) (tokens : List Token := []) : Except Fault Ranking := do
  return rankScored scorer.config (← scorer.scoreAll grammar tokens discourse derivations)

end Scorer

end Readings
