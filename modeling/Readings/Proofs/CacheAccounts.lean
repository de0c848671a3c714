import Readings.Proofs.AskedAgain
import Readings.Proofs.CacheInvariant

/-! The counters of a cache. Every request is a hit, a partial hit or a miss; and every parse that was
made for one of the latter is still there, or went because there was no room, because of its version or
because of its age, or was never stored. -/

namespace Readings

namespace SessionCache

/-- The counters after some requests, of which some wait for their parse to be stored. -/
structure IsBalanced (asked waiting : Nat) (cache : SessionCache) : Prop where
  asked : cache.stats.hits + cache.stats.partialHits + cache.stats.misses = asked
  parsed : cache.stats.partialHits + cache.stats.misses =
    cache.size + cache.stats.evictions + cache.stats.invalidations + cache.stats.expirations +
      cache.stats.uncacheable + waiting

variable {config : CacheConfig} {cache : SessionCache} {entry : CacheEntry} {asked waiting : Nat}

/-- An entry is taken out by its number, which no other has. -/
theorem exists_split_of_mem {entries : List CacheEntry} {victim : CacheEntry}
    (distinct : (entries.map (·.sequence)).Nodup) (inside : victim ∈ entries) :
    ∃ before later, entries = before ++ victim :: later ∧
      entries.filter (·.sequence != victim.sequence) = before ++ later ∧
      ∀ other ∈ before ++ later, other.sequence ≠ victim.sequence := by
  obtain ⟨before, later, rfl⟩ := List.append_of_mem inside
  rw [List.map_append, List.map_cons, List.nodup_middle, ← List.map_append] at distinct
  have differ : ∀ other ∈ before ++ later, other.sequence ≠ victim.sequence := fun other member same =>
    (List.nodup_cons.mp distinct).1 (same ▸ List.mem_map_of_mem member)
  refine ⟨before, later, rfl, ?_, differ⟩
  rw [List.filter_append, List.filter_cons_of_neg (by simp), ← List.filter_append,
    List.filter_eq_self]
  exact fun other member => bne_iff_ne.mpr (differ other member)

theorem length_evict (name : String) (count : Nat) {entries : List CacheEntry}
    (distinct : (entries.map (·.sequence)).Nodup)
    (enough : count ≤ entries.countP (·.grammar.name == name)) :
    (evict name count entries).length + count = entries.length := by
  induction count generalizing entries with
  | zero => rfl
  | succ count ih =>
    rw [evict]
    rcases victim?_cases (entries.filter (·.grammar.name == name)) with none | ⟨victim, member, found⟩
    · rw [List.countP_eq_length_filter, none] at enough
      exact absurd enough (Nat.not_succ_le_zero count)
    · obtain ⟨inside, named⟩ := List.mem_filter.mp member
      obtain ⟨before, later, rfl, left, -⟩ := exists_split_of_mem distinct inside
      have fewer : (before ++ later).Sublist (before ++ victim :: later) :=
        (List.sublist_cons_self _ _).append_left _
      rw [List.countP_append, List.countP_cons, if_pos named, ← Nat.add_assoc, ← List.countP_append]
        at enough
      have rest := ih (distinct.sublist (fewer.map _)) (Nat.le_of_succ_le_succ enough)
      rw [found]
      dsimp only
      rw [left, ← Nat.add_assoc, rest, List.length_append, List.length_append, List.length_cons,
        Nat.add_assoc]

namespace IsBalanced

theorem empty (config : CacheConfig) : (SessionCache.empty config).IsBalanced 0 0 := ⟨rfl, rfl⟩

theorem purgeExpired (balanced : cache.IsBalanced asked waiting) (now : Duration) :
    (cache.purgeExpired now).IsBalanced asked waiting := by
  have kept : (cache.entries.filter (cache.isFresh now)).length ≤ cache.size :=
    List.length_filter_le _ _
  have parsed := balanced.parsed
  refine ⟨balanced.asked, ?_⟩
  simp only [SessionCache.purgeExpired, withEntries, size] at kept parsed ⊢
  omega

theorem invalidateOtherVersions (balanced : cache.IsBalanced asked waiting) (key : GrammarKey) :
    (cache.invalidateOtherVersions key).IsBalanced asked waiting := by
  have kept : (cache.entries.filter fun entry => !isOutdated key entry).length ≤ cache.size :=
    List.length_filter_le _ _
  have parsed := balanced.parsed
  refine ⟨balanced.asked, ?_⟩
  simp only [SessionCache.invalidateOtherVersions, withEntries, size] at kept parsed ⊢
  omega

theorem refresh (balanced : cache.IsBalanced asked waiting) (now : Duration) (key : GrammarKey) :
    (cache.refresh now key).IsBalanced asked waiting :=
  (balanced.purgeExpired now).invalidateOtherVersions key

theorem recordHit (balanced : cache.IsBalanced asked waiting) (name : String)
    (fingerprints : List Fingerprint) :
    { cache with
      entries := recordHit name fingerprints cache.entries
      stats := { cache.stats with hits := cache.stats.hits + 1 } }.IsBalanced (asked + 1) waiting := by
  have all := balanced.asked
  have parsed := balanced.parsed
  constructor
  · dsimp only
    omega
  · simp only [size, length_recordHit] at parsed ⊢
    exact parsed

theorem countsMiss (balanced : cache.IsBalanced asked waiting) {stats : CacheStats}
    (counted : CountsMiss cache.stats stats) :
    { cache with stats }.IsBalanced (asked + 1) (waiting + 1) := by
  have all := balanced.asked
  have parsed := balanced.parsed
  simp only [size] at parsed
  cases counted with
  | shared => constructor <;> simp only [size] <;> omega
  | missed => constructor <;> simp only [size] <;> omega

/-- A new entry is one more, and takes as many away as are counted. -/
theorem store (balanced : cache.IsBalanced asked (waiting + 1)) (regular : cache.IsRegular config)
    (last : entry.sequence = cache.nextSequence)
    (lacks : ¬ cache.Has entry.grammar.name entry.fingerprints) :
    (cache.store entry).IsBalanced asked waiting := by
  have enough : (cache.entriesFor entry.grammar.name).length + 1 - max cache.config.maxEntries 1 ≤
      (cache.entries ++ [entry]).countP (·.grammar.name == entry.grammar.name) := by
    rw [List.countP_eq_length_filter, filter_concat, List.length_append, List.length_singleton]
    exact Nat.sub_le _ _
  have left := length_evict entry.grammar.name _ (regular.nodup_concat last) enough
  rw [List.length_append, List.length_singleton] at left
  have parsed := balanced.parsed
  rw [store_eq lacks]
  refine ⟨balanced.asked, ?_⟩
  simp only [size] at parsed ⊢
  omega

theorem insert (balanced : cache.IsBalanced asked (waiting + 1)) (regular : cache.IsRegular config)
    (now : Duration) {key : GrammarKey} (tokens : List Token) {fingerprints : List Fingerprint}
    (result : ParseResult) (lacks : ¬ cache.Has key.name fingerprints) :
    (cache.insert now key tokens fingerprints result).1.IsBalanced asked waiting := by
  simp only [SessionCache.insert]
  split
  next =>
    have parsed := balanced.parsed
    refine ⟨balanced.asked, ?_⟩
    simp only [size] at parsed ⊢
    omega
  next => exact balanced.store regular rfl lacks

end IsBalanced

end SessionCache

namespace IncrementalParser

structure HasAnswered (settings : ChartConfig) (config : CacheConfig) (asked : Nat)
    (parser : IncrementalParser) : Prop where
  orderly : parser.IsOrderly settings config
  regular : parser.cache.IsRegular config
  balanced : parser.cache.IsBalanced asked 0

variable {settings : ChartConfig} {config : CacheConfig} {parser : IncrementalParser} {asked : Nat}

theorem start_hasAnswered (settings : ChartConfig) (config : CacheConfig) :
    (start settings config).HasAnswered settings config 0 :=
  ⟨start_orderly settings config, .empty config, .empty config⟩

namespace HasAnswered

theorem next {looked stored : Duration} {grammar : Grammar} {tokens : List Token} {after : IncrementalParser}
    {answer : Except CacheError IncrementalParse} (answered : parser.HasAnswered settings config asked)
    (response : Responds parser looked stored grammar tokens (.ok (after, answer))) :
    after.HasAnswered settings config (asked + 1) := by
  have orderly := answered.orderly.next response
  have regular := answered.regular.reduced (.refresh parser.cache looked grammar.key)
  have balanced := answered.balanced.refresh looked grammar.key
  cases response with
  | found has =>
    exact ⟨orderly, regular.reduced (.recordHit _ _ rfl), balanced.recordHit _ _⟩
  | stored lacks parsed partly counted =>
    have waiting := regular.reduced (.withStats counted.entries_eq)
    exact ⟨orderly, waiting.perform ⟨stored, .insert _ _ _ _⟩,
      (balanced.countsMiss counted).insert waiting stored tokens _ lacks⟩

theorem ask (answered : parser.HasAnswered settings config asked)
    (incremental : config.incremental = true) {request : ParseRequest} {draft : GrammarDraft}
    (built : draft.build = .ok request.grammar) :
    (parser.ask request).HasAnswered settings config (asked + 1) := by
  have response := answered.orderly.responds incremental request.looked request.stored request.grammar
    request.tokens
  obtain ⟨result, parsed, -, -⟩ :=
    (GrammarDraft.isBuilt built).parse_ok settings request.tokens.toArray
  obtain ⟨next, answer, same, -⟩ := response.exists_reuse (answered.orderly.settings ▸ parsed)
  rw [same] at response
  rw [IncrementalParser.ask, same]
  exact answered.next response

theorem run (answered : parser.HasAnswered settings config asked)
    (incremental : config.incremental = true) {requests : List ParseRequest}
    (built : ∀ request ∈ requests, ∃ draft : GrammarDraft, draft.build = .ok request.grammar) :
    (parser.run requests).HasAnswered settings config (asked + requests.length) := by
  induction requests generalizing parser asked with
  | nil => exact answered
  | cons request requests ih =>
    obtain ⟨⟨draft, first⟩, rest⟩ := List.forall_mem_cons.mp built
    rw [List.length_cons, Nat.add_comm requests.length, ← Nat.add_assoc]
    exact ih (answered.ask incremental first) rest

end HasAnswered

end IncrementalParser

/-- Every request is counted as a hit, a partial hit or a miss, and every parse that was made is an entry
or is counted where it was lost. -/
theorem counters_conserve_entries (settings : ChartConfig) (config : CacheConfig)
    (incremental : config.incremental = true) (requests : List ParseRequest)
    (built : ∀ request ∈ requests, ∃ draft : GrammarDraft, draft.build = .ok request.grammar) :
    let cache := ((IncrementalParser.start settings config).run requests).cache
    cache.stats.hits + cache.stats.partialHits + cache.stats.misses = requests.length ∧
      cache.stats.partialHits + cache.stats.misses =
        cache.stats.entries + cache.stats.evictions + cache.stats.invalidations +
          cache.stats.expirations + cache.stats.uncacheable ∧
      cache.stats.entries = cache.size := by
  have answered := (IncrementalParser.start_hasAnswered settings config).run incremental built
  have counted := answered.regular.counted
  refine ⟨answered.balanced.asked.trans (Nat.zero_add _), ?_, counted⟩
  rw [counted]
  exact answered.balanced.parsed

def laterSums : Grammar := { sums with key := ⟨"sums", "2"⟩ }

theorem laterSums_builds : { sumsDraft with key := ⟨"sums", "2"⟩ }.build = .ok laterSums := by cbv

/-- Requests after which a parse was found again, one went because there was no room, one because of its
version and one because of its age. -/
def sumRequests : List ParseRequest :=
  [⟨0, 1, sums, threeOnes.toList.take 2⟩, ⟨1, 2, sums, threeOnes.toList.take 4⟩,
    ⟨2, 2, sums, threeOnes.toList.take 4⟩, ⟨2, 3, laterSums, threeOnes.toList.take 4⟩,
    ⟨9, 9, laterSums, []⟩]

theorem sumRequests_conserved :
    let cache := ((IncrementalParser.start {} { maxEntries := 1, timeToLive := 5 }).run sumRequests).cache
    cache.stats.hits + cache.stats.partialHits + cache.stats.misses = 5 ∧
      cache.stats.partialHits + cache.stats.misses =
        cache.stats.entries + cache.stats.evictions + cache.stats.invalidations +
          cache.stats.expirations + cache.stats.uncacheable ∧
      cache.stats.entries = cache.size ∧
      cache.stats = ⟨1, 1, 3, 1, 1, 1, 0, 1⟩ := by
  have built : ∀ request ∈ sumRequests, ∃ draft : GrammarDraft, draft.build = .ok request.grammar := by
    simp only [sumRequests, List.forall_mem_cons]
    exact ⟨⟨_, sumsDraft_builds⟩, ⟨_, sumsDraft_builds⟩, ⟨_, sumsDraft_builds⟩, ⟨_, laterSums_builds⟩,
      ⟨_, laterSums_builds⟩, fun _ none => absurd none List.not_mem_nil⟩
  obtain ⟨all, parsed, counted⟩ := counters_conserve_entries {} { maxEntries := 1, timeToLive := 5 } rfl
    sumRequests built
  exact ⟨all, parsed, counted, by decide +kernel⟩

end Readings
