import Readings.Cache.Store

/-! Parsing with a cache in front: the same tokens are not parsed twice, and for tokens that begin like
those of an earlier request it is told how much is shared. -/

namespace Readings

inductive CacheOutcome where
  | fullHit
  | partialHit (shared : Nat)
  | miss
  | bypassed
deriving Repr, DecidableEq, Inhabited

structure ReuseInfo where
  outcome : CacheOutcome
  reusedTokens : Nat
  totalTokens : Nat
  /-- How the tokens differ from those of the entry that shares the most with them. -/
  diff : Option TokenDiff
deriving Repr, DecidableEq, Inhabited

namespace ReuseInfo

def fresh (outcome : CacheOutcome) (totalTokens : Nat) : ReuseInfo := ⟨outcome, 0, totalTokens, none⟩

def ratio (reuse : ReuseInfo) : Float :=
  if reuse.totalTokens = 0 then
    match reuse.outcome with
    | .fullHit => 1.0
    | _ => 0.0
  else reuse.reusedTokens.toFloat / reuse.totalTokens.toFloat

end ReuseInfo

structure IncrementalParse where
  result : ParseResult
  reuse : ReuseInfo
deriving Repr, Inhabited

structure IncrementalParser where
  config : ChartConfig
  cache : SessionCache
deriving Repr, Inhabited

namespace IncrementalParser

def start (config : ChartConfig) (cache : CacheConfig) : IncrementalParser :=
  ⟨config, SessionCache.empty cache⟩

/-- What a lookup says about reuse, if the tokens have to be parsed. -/
def reuseOf (totalTokens : Nat) : CacheLookup → ReuseInfo
  | .full _ => ⟨.fullHit, totalTokens, totalTokens, none⟩
  | .shared count diff => ⟨.partialHit count, count, totalTokens, some diff⟩
  | .miss => .fresh .miss totalTokens

/-- The clock is read when the parse is looked up, and again when one is stored. -/
def parse (parser : IncrementalParser) (looked stored : Duration) (grammar : Grammar)
    (tokens : List Token) : Except Fault (IncrementalParser × Except CacheError IncrementalParse) :=
  if !parser.cache.config.incremental then do
    let result ← grammar.parse parser.config tokens.toArray
    return (parser, .ok ⟨result, .fresh .bypassed tokens.length⟩)
  else
    let fingerprints := Fingerprint.ofTokens tokens
    let (cache, found) := parser.cache.lookup looked grammar.key fingerprints
    match found with
    | .error error => .ok ({ parser with cache }, .error error)
    | .ok lookup =>
      let reuse := reuseOf tokens.length lookup
      match lookup with
      | .full result => .ok ({ parser with cache }, .ok ⟨result, reuse⟩)
      | _ => do
        let result ← grammar.parse parser.config tokens.toArray
        let (cache, _) := cache.insert stored grammar.key tokens fingerprints result
        return ({ parser with cache }, .ok ⟨result, reuse⟩)

end IncrementalParser

end Readings
