import Readings.Cache.Basic

/-! The cache of a session. Entries belong to a grammar by name; those of another version are dropped
when the grammar is looked up, and so are all entries that have reached their age. When a grammar has
more entries than there is room for, those that were used least are removed, the oldest first. -/

namespace Readings

structure SessionCache where
  config : CacheConfig
  /-- In the order in which they were stored. -/
  entries : List CacheEntry
  stats : CacheStats
  nextSequence : Nat
deriving Repr, Inhabited

namespace SessionCache

def empty (config : CacheConfig) : SessionCache := ⟨config, [], {}, 0⟩

def size (cache : SessionCache) : Nat := cache.entries.length

/-- The entries of a grammar, the oldest first. -/
def entriesFor (cache : SessionCache) (name : String) : List CacheEntry :=
  cache.entries.filter (·.grammar.name == name)

def withEntries (cache : SessionCache) (entries : List CacheEntry) : SessionCache :=
  { cache with entries, stats := { cache.stats with entries := entries.length } }

def clear (cache : SessionCache) : SessionCache := cache.withEntries []

def resetStats (cache : SessionCache) : SessionCache := { cache with stats := cache.stats.reset }

def isFresh (cache : SessionCache) (now : Duration) (entry : CacheEntry) : Bool :=
  decide (now - entry.createdAt < cache.config.timeToLive)

def purgeExpired (cache : SessionCache) (now : Duration) : SessionCache :=
  let kept := cache.entries.filter (cache.isFresh now)
  let dropped := cache.size - kept.length
  { cache.withEntries kept with
    stats := { cache.stats with
      expirations := cache.stats.expirations + dropped, entries := kept.length } }

def isOutdated (key : GrammarKey) (entry : CacheEntry) : Bool :=
  entry.grammar.name == key.name && entry.grammar.version != key.version

def invalidateOtherVersions (cache : SessionCache) (key : GrammarKey) : SessionCache :=
  let kept := cache.entries.filter fun entry => !isOutdated key entry
  let dropped := cache.size - kept.length
  { cache.withEntries kept with
    stats := { cache.stats with
      invalidations := cache.stats.invalidations + dropped, entries := kept.length } }

def firstError? : List CacheEntry → Option CacheError
  | [] => none
  | entry :: entries =>
    match entry.defect? with
    | some defect => some ⟨entry.grammar, defect⟩
    | none => firstError? entries

def recordHit (name : String) (fingerprints : List Fingerprint) : List CacheEntry → List CacheEntry
  | [] => []
  | entry :: entries =>
    if entry.grammar.name == name && entry.fingerprints == fingerprints then
      entry.recordHit :: entries
    else entry :: recordHit name fingerprints entries

/-- The first of the entries that share the most tokens at the start, with their number. -/
def closest? (fingerprints : List Fingerprint) (entries : List CacheEntry) :
    Option (CacheEntry × Nat) :=
  entries.foldl
    (fun best entry =>
      let shared := commonPrefix entry.fingerprints fingerprints
      match best with
      | none => some (entry, shared)
      | some (_, longest) => if longest < shared then some (entry, shared) else best)
    none

def refresh (cache : SessionCache) (now : Duration) (key : GrammarKey) : SessionCache :=
  (cache.purgeExpired now).invalidateOtherVersions key

def recordMiss (cache : SessionCache) : SessionCache :=
  { cache with stats := { cache.stats with misses := cache.stats.misses + 1 } }

def lookupFresh (cache : SessionCache) (key : GrammarKey) (fingerprints : List Fingerprint) :
    SessionCache × Except CacheError CacheLookup :=
  let candidates := cache.entriesFor key.name
  match firstError? candidates with
  | some error => (cache, .error error)
  | none =>
    match candidates.find? (·.fingerprints == fingerprints) with
    | some entry =>
      ({ cache with
          entries := recordHit key.name fingerprints cache.entries
          stats := { cache.stats with hits := cache.stats.hits + 1 } }, .ok (.full entry.result))
    | none =>
      match closest? fingerprints candidates with
      | none => (cache.recordMiss, .ok .miss)
      | some (entry, shared) =>
        if cache.config.minPrefix ≤ shared ∧ 0 < shared then
          ({ cache with stats := { cache.stats with partialHits := cache.stats.partialHits + 1 } },
            .ok (.shared shared (TokenDiff.between entry.fingerprints fingerprints)))
        else (cache.recordMiss, .ok .miss)

def lookup (cache : SessionCache) (now : Duration) (key : GrammarKey)
    (fingerprints : List Fingerprint) : SessionCache × Except CacheError CacheLookup :=
  (cache.refresh now key).lookupFresh key fingerprints

def victim? : List CacheEntry → Option CacheEntry
  | [] => none
  | entry :: entries =>
    match victim? entries with
    | none => some entry
    | some other => if other.goesBefore entry then some other else some entry

def evict (name : String) : Nat → List CacheEntry → List CacheEntry
  | 0, entries => entries
  | count + 1, entries =>
    match victim? (entries.filter (·.grammar.name == name)) with
    | none => entries
    | some victim => evict name count (entries.filter (·.sequence != victim.sequence))

/-- Adds an entry in the place of one with the same fingerprints, and removes what there is no room
for. -/
def store (cache : SessionCache) (entry : CacheEntry) : SessionCache :=
  let name := entry.grammar.name
  let others := cache.entries.filter fun known =>
    known.grammar.name != name || known.fingerprints != entry.fingerprints
  let entries := others ++ [entry]
  let count := entries.countP (·.grammar.name == name)
  let excess := count - max cache.config.maxEntries 1
  let kept := evict name excess entries
  { cache with
    entries := kept
    stats := { cache.stats with
      evictions := cache.stats.evictions + excess, entries := kept.length }
    nextSequence := cache.nextSequence + 1 }

/-- Stores a parse unless it hit a limit, and tells whether it did. -/
def insert (cache : SessionCache) (now : Duration) (key : GrammarKey) (tokens : List Token)
    (fingerprints : List Fingerprint) (result : ParseResult) : SessionCache × Bool :=
  if result.chart.isLimitExceeded then
    ({ cache with stats := { cache.stats with uncacheable := cache.stats.uncacheable + 1 } }, false)
  else
    (cache.store
      { grammar := key, tokens, fingerprints, result, createdAt := now, hitCount := 0,
        sequence := cache.nextSequence }, true)

end SessionCache

end Readings
