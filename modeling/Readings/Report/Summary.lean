import Readings.Analysis.Basic
import Readings.Decimal.Fixed
import Readings.Json.Basic

/-! Summaries: the figures of an analysis, and of the use of a cache. -/

namespace Readings

structure Summary where
  grammar : GrammarKey
  tokens : Nat
  outcome : ChartOutcome
  chartSets : Nat
  chartItems : Nat
  derivations : Nat
  truncated : Bool
  forest : ForestStats
  ambiguityPoints : Nat
  confidence : Confidence
  topScore : Option Float
  margin : Option Float
  needsClarification : Bool
deriving Repr

def ChartOutcome.render : ChartOutcome → String
  | .success => "success"
  | .failed _ _ => "failed"
  | .limitExceeded _ => "limit_exceeded"

def Analysis.summary (analysis : Analysis) : Except Fault Summary := do
  let chart := analysis.result.chart
  return {
    grammar := chart.grammar
    tokens := chart.tokenCount
    outcome := chart.outcome
    chartSets := chart.sets.size
    chartItems := chart.totalItems
    derivations := analysis.derivations.length
    truncated := analysis.truncated
    forest := ← analysis.forest.stats
    ambiguityPoints := analysis.ambiguityPoints.length
    confidence := analysis.ranking.confidence
    topScore := analysis.ranking.best?.map (·.scored.score)
    margin := analysis.ranking.margin?
    needsClarification := analysis.needsClarification }

namespace Summary

def renderScore (summary : Summary) : String :=
  match summary.topScore with
  | none => ""
  | some score =>
    let lead := match summary.margin with
      | some margin => ", lead " ++ Decimal.fixed 3 margin
      | none => ""
    " (top " ++ Decimal.fixed 3 score ++ lead ++ ")"

def render (summary : Summary) : String :=
  let forest := summary.forest
  String.join
    ["grammar:        " ++ summary.grammar.render ++ "\n",
     "tokens:         " ++ toString summary.tokens ++ "\n",
     "outcome:        " ++ summary.outcome.render ++ "\n",
     "chart:          " ++ toString summary.chartSets ++ " sets, " ++ toString summary.chartItems ++
       " items\n",
     "derivations:    " ++ toString summary.derivations ++
       (if summary.truncated then " (truncated)" else "") ++ "\n",
     "forest:         " ++ toString forest.nodes ++ " nodes (" ++ toString forest.choices ++ " or, " ++
       toString forest.applications ++ " and, " ++ toString forest.leaves ++ " leaves), " ++
       toString forest.derivations ++ " readings\n",
     "ambiguities:    " ++ toString summary.ambiguityPoints ++ "\n",
     "confidence:     " ++ summary.confidence.render ++ summary.renderScore ++ "\n",
     "clarify:        " ++ (if summary.needsClarification then "yes" else "no") ++ "\n"]

def toJson (summary : Summary) : Json :=
  let forest := summary.forest
  .object [("grammar", .text summary.grammar.render), ("tokens", .nat summary.tokens),
    ("outcome", .text summary.outcome.render), ("chart_sets", .nat summary.chartSets),
    ("chart_items", .nat summary.chartItems), ("derivations", .nat summary.derivations),
    ("truncated", .bool summary.truncated),
    ("forest", .object [("nodes", .nat forest.nodes), ("or_nodes", .nat forest.choices),
      ("and_nodes", .nat forest.applications), ("leaves", .nat forest.leaves),
      ("max_alternatives", .nat forest.maxAlternatives), ("derivations", .nat forest.derivations)]),
    ("ambiguity_points", .nat summary.ambiguityPoints),
    ("confidence", .text summary.confidence.render),
    ("top_score", .optional .float summary.topScore), ("margin", .optional .float summary.margin),
    ("needs_clarification", .bool summary.needsClarification)]

end Summary

def CacheStats.render (stats : CacheStats) : Except Fault String := do
  let ratio ← stats.hitRatio
  return "cache: " ++ toString stats.entries ++ " entries, " ++ toString stats.hits ++ " hits, " ++
    toString stats.partialHits ++ " partial, " ++ toString stats.misses ++ " misses (" ++
    Decimal.fixed 0 (ratio * 100.0) ++ "% hit ratio), " ++ toString stats.evictions ++ " evicted, " ++
    toString stats.expirations ++ " expired, " ++ toString stats.invalidations ++
    " invalidated, " ++ toString stats.uncacheable ++ " uncacheable\n"

end Readings
