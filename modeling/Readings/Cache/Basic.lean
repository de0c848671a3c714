import Readings.Derivation.Extraction
import Readings.Edit.Diff
import Readings.Time.Duration

/-! What a cache of parses holds: entries with a parse each, settings, and counters of its use. -/

namespace Readings

structure ParseResult where
  chart : Chart
  selection : Selection
deriving Repr, Inhabited

def ParseResult.isSuccess (result : ParseResult) : Bool := result.chart.isSuccess

def Grammar.parse (grammar : Grammar) (config : ChartConfig) (tokens : Array Token) :
    Except Fault ParseResult := do
  let chart := Chart.build grammar config tokens
  return { chart, selection := ← chart.extract grammar config.maxDerivations }

structure CacheConfig where
  /-- Without it every request is parsed and nothing is kept. -/
  incremental : Bool := true
  /-- How many entries are kept for a grammar. -/
  maxEntries : Nat := 32
  /-- An entry of this age is dropped. -/
  timeToLive : Duration := Duration.ofSeconds 300
  /-- A partial hit shares at least this many tokens. -/
  minPrefix : Nat := 1
deriving Repr, DecidableEq, Inhabited

/-- Room for at least one entry. -/
def CacheConfig.withMaxEntries (config : CacheConfig) (count : Nat) : CacheConfig :=
  { config with maxEntries := max count 1 }

def hitCountMax : Nat := UInt32.size - 1

structure CacheEntry where
  grammar : GrammarKey
  tokens : List Token
  fingerprints : List Fingerprint
  result : ParseResult
  createdAt : Duration
  hitCount : Nat
  sequence : Nat
deriving Repr, Inhabited

inductive CacheDefect where
  | fingerprintCount (tokens fingerprints : Nat)
  | chartSize (covered tokens : Nat)
  | chartGrammar (key : GrammarKey)
  | limitExceeded
deriving Repr, DecidableEq

structure CacheError where
  grammar : GrammarKey
  defect : CacheDefect
deriving Repr, DecidableEq

namespace CacheError

def reason : CacheDefect → String
  | .fingerprintCount tokens fingerprints =>
    toString tokens ++ " tokens but " ++ toString fingerprints ++ " fingerprints"
  | .chartSize covered tokens =>
    "chart covers " ++ toString covered ++ " tokens, entry holds " ++ toString tokens
  | .chartGrammar key => "chart was built with grammar " ++ key.render
  | .limitExceeded => "entry holds a chart that hit a resource limit"

def message (error : CacheError) : String :=
  "Corrupted cache entry for " ++ error.grammar.render ++ ": " ++ reason error.defect

def code : String := "cache::corrupted"

end CacheError

namespace CacheEntry

def defect? (entry : CacheEntry) : Option CacheDefect :=
  let chart := entry.result.chart
  if entry.tokens.length ≠ entry.fingerprints.length then
    some (.fingerprintCount entry.tokens.length entry.fingerprints.length)
  else if chart.tokenCount ≠ entry.tokens.length then
    some (.chartSize chart.tokenCount entry.tokens.length)
  else if chart.grammar ≠ entry.grammar then some (.chartGrammar chart.grammar)
  else if chart.isLimitExceeded then some .limitExceeded
  else none

def recordHit (entry : CacheEntry) : CacheEntry :=
  { entry with hitCount := min (entry.hitCount + 1) hitCountMax }

/-- Entries with fewer hits go first, then older ones, then those stored earlier. -/
def goesBefore (a b : CacheEntry) : Bool :=
  ((compare a.hitCount b.hitCount).then
    ((compare a.createdAt b.createdAt).then (compare a.sequence b.sequence))).isLT

def differsFrom (fingerprints : List Fingerprint) (entry : CacheEntry) : Bool :=
  entry.fingerprints != fingerprints

end CacheEntry

structure CacheStats where
  hits : Nat := 0
  partialHits : Nat := 0
  misses : Nat := 0
  /-- Entries removed because there was no room. -/
  evictions : Nat := 0
  /-- Entries dropped because they are of another version of their grammar. -/
  invalidations : Nat := 0
  /-- Entries dropped because of their age. -/
  expirations : Nat := 0
  /-- Parses that were not stored because they hit a limit. -/
  uncacheable : Nat := 0
  entries : Nat := 0
deriving Repr, DecidableEq, Inhabited

namespace CacheStats

def hitRatio (stats : CacheStats) : Except Fault Float := do
  let total ← addCounts (← addCounts stats.hits stats.partialHits) stats.misses
  return if total = 0 then 0.0 else stats.hits.toFloat / total.toFloat

def reset (stats : CacheStats) : CacheStats := { entries := stats.entries }

end CacheStats

inductive CacheLookup where
  | full (result : ParseResult)
  /-- How many tokens an entry shares at the start, and how it differs. -/
  | shared (count : Nat) (diff : TokenDiff)
  | miss
deriving Repr

end Readings
