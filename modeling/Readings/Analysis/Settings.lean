import Readings.Analysis.Basic
import Readings.Json.Decode
import Readings.Time.Debounce

/-! Settings and counters written in JSON. Fields that are not there keep their defaults. -/

namespace Readings

namespace ChartConfig

def toJson (config : ChartConfig) : Json :=
  .object [("max_items_per_set", .nat config.maxItemsPerSet),
    ("max_total_items", .nat config.maxTotalItems), ("max_derivations", .nat config.maxDerivations)]

def ofJson? (value : Json) : Option ChartConfig := do
  let [perSet, total, derivations] ←
    value.record? ["max_items_per_set", "max_total_items", "max_derivations"] | none
  let defaults : ChartConfig := {}
  return {
    maxItemsPerSet := ← Json.fieldOr? defaults.maxItemsPerSet Json.toCount? perSet
    maxTotalItems := ← Json.fieldOr? defaults.maxTotalItems Json.toCount? total
    maxDerivations := ← Json.fieldOr? defaults.maxDerivations Json.toCount? derivations }

end ChartConfig

def ScoringWeights.ofJson? (number : Json → Option Float) (value : Json) :
    Option ScoringWeights := do
  let [priority, explicitness, safety, specificity, parsimony, coherence] ← value.record?
    ["priority", "explicitness", "safety", "specificity", "parsimony", "coherence"] | none
  let defaults : ScoringWeights := {}
  return {
    priority := ← Json.fieldOr? defaults.priority number priority
    explicitness := ← Json.fieldOr? defaults.explicitness number explicitness
    safety := ← Json.fieldOr? defaults.safety number safety
    specificity := ← Json.fieldOr? defaults.specificity number specificity
    parsimony := ← Json.fieldOr? defaults.parsimony number parsimony
    coherence := ← Json.fieldOr? defaults.coherence number coherence }

def ScoringConfig.ofJson? (number : Json → Option Float) (value : Json) :
    Option ScoringConfig := do
  let [weights, highThreshold, highMargin, ambiguityMargin, mediumThreshold, minAcceptable,
    destructiveActions, vagueActions] ← value.record?
      ["weights", "high_threshold", "high_margin", "ambiguity_margin", "medium_threshold",
       "min_acceptable", "destructive_actions", "vague_actions"] | none
  let defaults : ScoringConfig := {}
  return {
    weights := ← Json.fieldOr? defaults.weights (ScoringWeights.ofJson? number) weights
    highThreshold := ← Json.fieldOr? defaults.highThreshold number highThreshold
    highMargin := ← Json.fieldOr? defaults.highMargin number highMargin
    ambiguityMargin := ← Json.fieldOr? defaults.ambiguityMargin number ambiguityMargin
    mediumThreshold := ← Json.fieldOr? defaults.mediumThreshold number mediumThreshold
    minAcceptable := ← Json.fieldOr? defaults.minAcceptable number minAcceptable
    destructiveActions :=
      ← Json.fieldOr? defaults.destructiveActions (Json.toList? Json.toText?) destructiveActions
    vagueActions := ← Json.fieldOr? defaults.vagueActions (Json.toList? Json.toText?) vagueActions }

def AnalyzerConfig.ofJson? (value : Json) : Option AnalyzerConfig := do
  let [chart, scoring, prune] ← value.record? ["chart", "scoring", "prune"] | none
  let defaults : AnalyzerConfig := {}
  return {
    chart := ← Json.fieldOr? defaults.chart ChartConfig.ofJson? chart
    scoring := ← Json.fieldOr? defaults.scoring (ScoringConfig.ofJson? Json.toFloat?) scoring
    prune := ← Json.fieldOr? defaults.prune (Json.toOption? Json.toSigned?) prune }

namespace CacheConfig

def toJson (config : CacheConfig) : Json :=
  .object [("incremental", .bool config.incremental), ("max_entries", .nat config.maxEntries),
    ("ttl", config.timeToLive.toJson), ("min_prefix", .nat config.minPrefix)]

def ofJson? (value : Json) : Option CacheConfig := do
  let [incremental, maxEntries, timeToLive, minPrefix] ←
    value.record? ["incremental", "max_entries", "ttl", "min_prefix"] | none
  let defaults : CacheConfig := {}
  return {
    incremental := ← Json.fieldOr? defaults.incremental Json.toBool? incremental
    maxEntries := ← Json.fieldOr? defaults.maxEntries Json.toCount? maxEntries
    timeToLive := ← Json.fieldOr? defaults.timeToLive Duration.ofJson? timeToLive
    minPrefix := ← Json.fieldOr? defaults.minPrefix Json.toCount? minPrefix }

end CacheConfig

def DebouncePolicy.toJson (policy : DebouncePolicy) : Json :=
  .object [("min_interval", policy.minInterval.toJson), ("max_delay", policy.maxDelay.toJson),
    ("pause_threshold", policy.pauseThreshold.toJson)]

def CacheStats.fields (stats : CacheStats) : List (String × Json) :=
  [("hits", .nat stats.hits), ("partial_hits", .nat stats.partialHits),
    ("misses", .nat stats.misses), ("evictions", .nat stats.evictions),
    ("invalidations", .nat stats.invalidations), ("expirations", .nat stats.expirations),
    ("uncacheable", .nat stats.uncacheable), ("entries", .nat stats.entries)]

def CacheStats.ofJson? (value : Json) : Option CacheStats := do
  let [hits, partialHits, misses, evictions, invalidations, expirations, uncacheable, entries] ←
    value.record? ["hits", "partial_hits", "misses", "evictions", "invalidations", "expirations",
      "uncacheable", "entries"] | none
  return {
    hits := ← Json.required? Json.toCount? hits
    partialHits := ← Json.required? Json.toCount? partialHits
    misses := ← Json.required? Json.toCount? misses
    evictions := ← Json.required? Json.toCount? evictions
    invalidations := ← Json.required? Json.toCount? invalidations
    expirations := ← Json.required? Json.toCount? expirations
    uncacheable := ← Json.required? Json.toCount? uncacheable
    entries := ← Json.required? Json.toCount? entries }

end Readings
