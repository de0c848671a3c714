import Readings.Cache.Parser
import Readings.Diagnosis.ParseError
import Readings.Forest.Ambiguity
import Readings.Forest.Build
import Readings.Forest.Enumeration
import Readings.Forest.Prune
import Readings.Score.Ranking

/-! The analysis of a request: its parse, the forest of its derivations, the places where they part,
and their ranking. -/

namespace Readings

structure AnalyzerConfig where
  chart : ChartConfig := {}
  scoring : ScoringConfig := {}
  /-- Alternatives of a lower priority are pruned. -/
  prune : Option Int := none
deriving Repr, Inhabited

structure Analysis where
  result : ParseResult
  forest : Forest
  ambiguityPoints : List AmbiguityPoint
  derivations : List Derivation
  ranking : Ranking
  error : Option ParseError
  /-- Some derivations were left out. -/
  truncated : Bool
deriving Repr

namespace Analysis

def isSuccess (analysis : Analysis) : Bool := analysis.result.isSuccess

def needsClarification (analysis : Analysis) : Bool := analysis.ranking.needsClarification

def best? (analysis : Analysis) : Option (RankedParse × Derivation) := do
  let best ← analysis.ranking.best?
  let derivation ← analysis.derivations[best.scored.derivation]?
  return (best, derivation)

end Analysis

structure Analyzer where
  grammar : Grammar
  config : AnalyzerConfig
  scorer : Scorer

namespace Analyzer

def ofConfig (grammar : Grammar) (config : AnalyzerConfig) : Analyzer :=
  ⟨grammar, config, { config := config.scoring }⟩

/-- The forest of a parse and the derivations to rank: those of the parse, or those that are left when
the forest is pruned. -/
def narrow (analyzer : Analyzer) (tokenCount : Nat) (selection : Selection) :
    Except Fault (Forest × Selection) := do
  let forest ← Forest.ofDerivations analyzer.grammar selection.derivations tokenCount
  match analyzer.config.prune with
  | none => return (forest, selection)
  | some threshold =>
    let pruned ← forest.pruned threshold
    let left ← pruned.derivations analyzer.config.chart.maxDerivations
    return (pruned, ⟨left.derivations, selection.truncated || left.truncated⟩)

def assemble (analyzer : Analyzer) (tokens : List Token) (result : ParseResult)
    (discourse : Option Discourse) : Except Fault Analysis := do
  let (forest, ranked) ← analyzer.narrow tokens.length result.selection
  let ambiguityPoints ← forest.ambiguityPoints analyzer.grammar tokens.toArray
  let ranking ← analyzer.scorer.rank analyzer.grammar discourse ranked.derivations tokens
  return {
    result, forest, ambiguityPoints, derivations := ranked.derivations, ranking,
    error := result.chart.error? tokens.toArray, truncated := ranked.truncated }

def analyze (analyzer : Analyzer) (tokens : List Token) (discourse : Option Discourse) :
    Except Fault Analysis := do
  let result ← analyzer.grammar.parse analyzer.config.chart tokens.toArray
  analyzer.assemble tokens result discourse

end Analyzer

end Readings
