import Readings.Proofs.LeastValuable

/-! Entries under the names of their grammars. A cache may keep a list for each grammar that has entries,
work on that list alone, and drop it when it becomes empty. Such a cache and one with all entries in one
list answer alike, count alike and hold the same entries in the same order, since every operation does to
the one what it does to the other. So the lists that the latter shows are those that the former keeps. -/

namespace Readings

structure GroupedCache where
  config : CacheConfig
  lists : Std.HashMap String (List CacheEntry)
  stats : CacheStats
  nextSequence : Nat

namespace GroupedCache

def empty (config : CacheConfig) : GroupedCache := ⟨config, ∅, {}, 0⟩

def entriesFor (cache : GroupedCache) (name : String) : List CacheEntry := cache.lists.getD name []

def size (cache : GroupedCache) : Nat := (cache.lists.toList.map (·.2.length)).sum

def refreshCount (cache : GroupedCache) : GroupedCache :=
  let cache := { cache with lists := cache.lists.filter fun _ entries => !entries.isEmpty }
  { cache with stats := { cache.stats with entries := cache.size } }

def clear (cache : GroupedCache) : GroupedCache :=
  { cache with lists := ∅, stats := { cache.stats with entries := 0 } }

def resetStats (cache : GroupedCache) : GroupedCache := { cache with stats := cache.stats.reset }

def isFresh (cache : GroupedCache) (now : Duration) (entry : CacheEntry) : Bool :=
  decide (now - entry.createdAt < cache.config.timeToLive)

def purgeExpired (cache : GroupedCache) (now : Duration) : GroupedCache :=
  let dropped := cache.lists.toList.map fun (_, entries) =>
    entries.length - (entries.filter (cache.isFresh now)).length
  refreshCount { cache with
    lists := cache.lists.map fun _ entries => entries.filter (cache.isFresh now)
    stats := { cache.stats with expirations := cache.stats.expirations + dropped.sum } }

/-- A grammar without entries leaves the cache as it is. -/
def invalidateOtherVersions (cache : GroupedCache) (key : GrammarKey) : GroupedCache :=
  match cache.lists[key.name]? with
  | none => cache
  | some entries =>
    let kept := entries.filter (·.grammar.version == key.version)
    refreshCount { cache with
      lists := cache.lists.insert key.name kept
      stats := { cache.stats with
        invalidations := cache.stats.invalidations + (entries.length - kept.length) } }

def recordHit (fingerprints : List Fingerprint) : List CacheEntry → List CacheEntry
  | [] => []
  | entry :: entries =>
    if entry.fingerprints == fingerprints then entry.recordHit :: entries
    else entry :: recordHit fingerprints entries

def recordMiss (cache : GroupedCache) : GroupedCache :=
  { cache with stats := { cache.stats with misses := cache.stats.misses + 1 } }

def lookupFresh (cache : GroupedCache) (key : GrammarKey) (fingerprints : List Fingerprint) :
    GroupedCache × Except CacheError CacheLookup :=
  match cache.lists[key.name]? with
  | none => (cache.recordMiss, .ok .miss)
  | some entries =>
    match SessionCache.firstError? entries with
    | some error => (cache, .error error)
    | none =>
      match entries.find? (·.fingerprints == fingerprints) with
      | some entry =>
        ({ cache with
            lists := cache.lists.insert key.name (recordHit fingerprints entries)
            stats := { cache.stats with hits := cache.stats.hits + 1 } }, .ok (.full entry.result))
      | none =>
        match SessionCache.closest? fingerprints entries with
        | none => (cache.recordMiss, .ok .miss)
        | some (entry, shared) =>
          if cache.config.minPrefix ≤ shared ∧ 0 < shared then
            ({ cache with stats := { cache.stats with partialHits := cache.stats.partialHits + 1 } },
              .ok (.shared shared (TokenDiff.between entry.fingerprints fingerprints)))
          else (cache.recordMiss, .ok .miss)

def lookup (cache : GroupedCache) (now : Duration) (key : GrammarKey)
    (fingerprints : List Fingerprint) : GroupedCache × Except CacheError CacheLookup :=
  ((cache.purgeExpired now).invalidateOtherVersions key).lookupFresh key fingerprints

def evict : Nat → List CacheEntry → List CacheEntry
  | 0, entries => entries
  | count + 1, entries =>
    match SessionCache.victim? entries with
    | none => entries
    | some victim => evict count (entries.eraseP (·.sequence == victim.sequence))

def store (cache : GroupedCache) (entry : CacheEntry) : GroupedCache :=
  let name := entry.grammar.name
  let listed := (cache.entriesFor name).filter (·.differsFrom entry.fingerprints) ++ [entry]
  let kept := evict (listed.length - max cache.config.maxEntries 1) listed
  refreshCount { cache with
    lists := cache.lists.insert name kept
    stats := { cache.stats with
      evictions := cache.stats.evictions + (listed.length - kept.length) }
    nextSequence := cache.nextSequence + 1 }

def insert (cache : GroupedCache) (now : Duration) (key : GrammarKey) (tokens : List Token)
    (fingerprints : List Fingerprint) (result : ParseResult) : GroupedCache × Bool :=
  if result.chart.isLimitExceeded then
    ({ cache with stats := { cache.stats with uncacheable := cache.stats.uncacheable + 1 } }, false)
  else
    (cache.store
      { grammar := key, tokens, fingerprints, result, createdAt := now, hitCount := 0,
        sequence := cache.nextSequence }, true)

def perform (cache : GroupedCache) (request : CacheRequest) : GroupedCache :=
  match request.operation with
  | .insert key tokens fingerprints result =>
    (cache.insert request.now key tokens fingerprints result).1
  | .lookup key fingerprints => (cache.lookup request.now key fingerprints).1
  | .purgeExpired => cache.purgeExpired request.now
  | .invalidateOtherVersions key => cache.invalidateOtherVersions key
  | .clear => cache.clear
  | .resetStats => cache.resetStats

def performAll (cache : GroupedCache) (requests : List CacheRequest) : GroupedCache :=
  requests.foldl perform cache

/-- The lists are those that another cache shows of its entries, and none is empty. -/
def Lists (lists : Std.HashMap String (List CacheEntry)) (cache : SessionCache) : Prop :=
  ∀ name entries, lists[name]? = some entries ↔ entries ≠ [] ∧ cache.entriesFor name = entries

/-- A cache with a list for each grammar, and one with the same entries in a single list. -/
structure Groups (cache : SessionCache) (grouped : GroupedCache) : Prop where
  config : grouped.config = cache.config
  stats : grouped.stats = cache.stats
  sequence : grouped.nextSequence = cache.nextSequence
  lists : Lists grouped.lists cache

variable {config : CacheConfig} {cache : SessionCache} {grouped : GroupedCache} {entry : CacheEntry}
  {name : String}

/-- The lists of both caches are the same, in whatever order they are told. -/
theorem Lists.perm {lists : Std.HashMap String (List CacheEntry)} (same : Lists lists cache) :
    lists.toList.Perm cache.lists := by
  have distinct : lists.toList.Nodup := by
    refine Std.HashMap.distinct_keys_toList.imp fun different equal => ?_
    rw [equal, beq_self_eq_true] at different
    cases different
  have named : cache.lists.Nodup :=
    cache.nodup_names.map fun _ _ equal => congrArg Prod.fst equal
  refine (List.perm_ext_iff_of_nodup distinct named).mpr ?_
  rintro ⟨name, entries⟩
  rw [Std.HashMap.mem_toList_iff_getElem?_eq_some, same, SessionCache.lists, List.mem_map]
  constructor
  · rintro ⟨present, rfl⟩
    exact ⟨name, SessionCache.mem_names_iff.mpr present, rfl⟩
  · rintro ⟨other, listed, equal⟩
    cases equal
    exact ⟨SessionCache.mem_names_iff.mp listed, rfl⟩

theorem Lists.size_eq (same : Lists grouped.lists cache) : grouped.size = cache.size := by
  rw [size, cache.size_eq_sum_lists]
  exact (same.perm.map _).sum_eq

/-- Whatever is in the lists, they show the same entries once the empty ones are dropped. -/
theorem lists_refreshCount (same : ∀ name, grouped.entriesFor name = cache.entriesFor name) :
    Lists grouped.refreshCount.lists cache := by
  intro name entries
  rw [← same, entriesFor, Std.HashMap.getD_eq_getD_getElem?, refreshCount, Std.HashMap.getElem?_filter',
    Option.filter_eq_some_iff]
  cases grouped.lists[name]? with
  | none => simp
  | some known => simp [and_comm]

theorem groups_refreshCount (configured : grouped.config = cache.config)
    (sequence : grouped.nextSequence = cache.nextSequence)
    (same : ∀ name, grouped.entriesFor name = cache.entriesFor name)
    (stats : { grouped.stats with entries := cache.size } = cache.stats) :
    Groups cache grouped.refreshCount := by
  have lists := lists_refreshCount same
  refine ⟨configured, ?_, sequence, lists⟩
  rw [← stats, ← lists.size_eq]
  rfl

theorem length_sub_filter (p : CacheEntry → Bool) (entries : List CacheEntry) :
    entries.length - (entries.filter p).length = entries.countP (!p ·) := by
  rw [List.length_eq_countP_add_countP p, ← List.countP_eq_length_filter, Nat.add_sub_cancel_left]
  exact List.countP_congr fun entry _ => by simp

theorem recordHit_eq {entries : List CacheEntry} (fingerprints : List Fingerprint)
    (named : ∀ entry ∈ entries, entry.grammar.name = name) :
    SessionCache.recordHit name fingerprints entries = recordHit fingerprints entries := by
  induction entries with
  | nil => rfl
  | cons entry entries ih =>
    obtain ⟨own, rest⟩ := List.forall_mem_cons.mp named
    rw [SessionCache.recordHit, recordHit, ih rest, own, beq_self_eq_true, Bool.true_and]

theorem evict_eq (count : Nat) {entries : List CacheEntry}
    (named : ∀ entry ∈ entries, entry.grammar.name = name)
    (distinct : (entries.map (·.sequence)).Nodup) :
    SessionCache.evict name count entries = evict count entries := by
  induction count generalizing entries with
  | zero => rfl
  | succ count ih =>
    rcases SessionCache.evict_cases named distinct with
      rfl | ⟨before, victim, later, rfl, found, differ, taken⟩
    · rfl
    · have fewer : (before ++ later).Sublist (before ++ victim :: later) :=
        (List.sublist_cons_self _ _).append_left _
      have erased : (before ++ victim :: later).eraseP (·.sequence == victim.sequence) =
          before ++ later := by
        rw [List.eraseP_append_right, List.eraseP_cons_of_pos (by simp)]
        intro other member same
        exact differ other (List.mem_append_left _ member) (beq_iff_eq.mp same)
      rw [taken, evict, found]
      dsimp only
      rw [erased]
      exact ih (fun entry member => named entry (fewer.subset member)) (distinct.sublist (fewer.map _))

namespace Groups

theorem empty (config : CacheConfig) : Groups (.empty config) (.empty config) := by
  refine ⟨rfl, rfl, rfl, fun name entries => ?_⟩
  rw [GroupedCache.empty, Std.HashMap.getElem?_empty]
  exact iff_of_false nofun fun present => present.1 present.2.symm

theorem cases (groups : Groups cache grouped) (name : String) :
    grouped.lists[name]? = none ∧ cache.entriesFor name = [] ∨
      grouped.lists[name]? = some (cache.entriesFor name) ∧ cache.entriesFor name ≠ [] := by
  by_cases absent : cache.entriesFor name = []
  · refine Or.inl ⟨Option.eq_none_iff_forall_ne_some.mpr fun entries found => ?_, absent⟩
    obtain ⟨present, same⟩ := (groups.lists name entries).mp found
    exact present (same.symm.trans absent)
  · exact Or.inr ⟨(groups.lists name _).mpr ⟨absent, rfl⟩, absent⟩

theorem entriesFor_eq (groups : Groups cache grouped) (name : String) :
    grouped.entriesFor name = cache.entriesFor name := by
  rw [entriesFor, Std.HashMap.getD_eq_getD_getElem?]
  rcases groups.cases name with ⟨missing, absent⟩ | ⟨found, -⟩
  · rw [missing, absent]
    rfl
  · rw [found]
    rfl

theorem withStats (groups : Groups cache grouped) (change : CacheStats → CacheStats) :
    Groups { cache with stats := change cache.stats } { grouped with stats := change grouped.stats } :=
  ⟨groups.config, congrArg change groups.stats, groups.sequence, groups.lists⟩

theorem recordMiss (groups : Groups cache grouped) : Groups cache.recordMiss grouped.recordMiss :=
  groups.withStats fun stats => { stats with misses := stats.misses + 1 }

theorem recordHit (groups : Groups cache grouped) (present : cache.entriesFor name ≠ [])
    (fingerprints : List Fingerprint) :
    Groups
      { cache with
        entries := SessionCache.recordHit name fingerprints cache.entries
        stats := { cache.stats with hits := cache.stats.hits + 1 } }
      { grouped with
        lists := grouped.lists.insert name
          (GroupedCache.recordHit fingerprints (cache.entriesFor name))
        stats := { grouped.stats with hits := grouped.stats.hits + 1 } } := by
  have counted : SessionCache.recordHit name fingerprints (cache.entriesFor name) =
      GroupedCache.recordHit fingerprints (cache.entriesFor name) :=
    recordHit_eq fingerprints fun entry member => (SessionCache.mem_entriesFor.mp member).2
  have kept : GroupedCache.recordHit fingerprints (cache.entriesFor name) ≠ [] := by
    rw [← counted, ← List.length_pos_iff, SessionCache.length_recordHit]
    exact List.length_pos_iff.mpr present
  refine ⟨groups.config, by rw [groups.stats], groups.sequence, fun other entries => ?_⟩
  change _ ↔ entries ≠ [] ∧ (SessionCache.recordHit name fingerprints cache.entries).filter
    (·.grammar.name == other) = entries
  rw [Std.HashMap.getElem?_insert]
  split
  next same =>
    cases beq_iff_eq.mp same
    rw [SessionCache.filter_recordHit, ← SessionCache.entriesFor, counted, Option.some.injEq]
    exact (and_iff_right_of_imp fun equal => equal ▸ kept).symm
  next differ =>
    rw [SessionCache.filter_recordHit_of_ne fun same => differ (beq_iff_eq.mpr same.symm)]
    exact groups.lists other entries

theorem purgeExpired (groups : Groups cache grouped) (now : Duration) :
    Groups (cache.purgeExpired now) (grouped.purgeExpired now) := by
  have fresh : grouped.isFresh now = cache.isFresh now := by
    funext entry
    rw [isFresh, groups.config, SessionCache.isFresh]
  apply groups_refreshCount
  case configured => exact groups.config
  case sequence => exact groups.sequence
  case same =>
    intro name
    rw [SessionCache.entriesFor_purgeExpired, ← groups.entriesFor_eq name, entriesFor, entriesFor,
      Std.HashMap.getD_map, Std.HashMap.getD_eq_getD_getElem?, fresh]
    cases grouped.lists[name]? <;> rfl
  case stats =>
    have dropped : (grouped.lists.toList.map fun list =>
        list.2.length - (list.2.filter (grouped.isFresh now)).length).sum =
        cache.size - (cache.entries.filter (cache.isFresh now)).length := by
      simp only [fresh, SessionCache.size, length_sub_filter]
      rw [cache.countP_eq_sum_lists]
      exact (groups.lists.perm.map _).sum_eq
    simp only [dropped, groups.stats]
    rfl

theorem invalidateOtherVersions (groups : Groups cache grouped) (regular : cache.IsRegular config)
    (key : GrammarKey) :
    Groups (cache.invalidateOtherVersions key) (grouped.invalidateOtherVersions key) := by
  rcases groups.cases key.name with ⟨missing, absent⟩ | ⟨found, -⟩
  · simp only [GroupedCache.invalidateOtherVersions, missing]
    rw [regular.invalidateOtherVersions_eq_self absent]
    exact groups
  · simp only [GroupedCache.invalidateOtherVersions, found]
    apply groups_refreshCount
    case configured => exact groups.config
    case sequence => exact groups.sequence
    case same =>
      intro name
      rw [entriesFor, Std.HashMap.getD_insert]
      split
      next same => rw [← beq_iff_eq.mp same, cache.entriesFor_invalidateOtherVersions]
      next differ =>
        rw [cache.entriesFor_invalidateOtherVersions_of_ne fun same => differ (beq_iff_eq.mpr same.symm)]
        exact groups.entriesFor_eq name
    case stats =>
      have dropped : (cache.entriesFor key.name).length -
          ((cache.entriesFor key.name).filter (·.grammar.version == key.version)).length =
          cache.size - (cache.entries.filter fun entry => !SessionCache.isOutdated key entry).length := by
        rw [SessionCache.size, length_sub_filter, length_sub_filter, SessionCache.entriesFor,
          List.countP_filter]
        exact List.countP_congr fun entry _ => by simp [SessionCache.isOutdated, and_comm]
      simp only [dropped, groups.stats]
      rfl

theorem lookupFresh (groups : Groups cache grouped) (key : GrammarKey)
    (fingerprints : List Fingerprint) :
    Groups (cache.lookupFresh key fingerprints).1 (grouped.lookupFresh key fingerprints).1 ∧
      (grouped.lookupFresh key fingerprints).2 = (cache.lookupFresh key fingerprints).2 := by
  rcases groups.cases key.name with ⟨missing, absent⟩ | ⟨found, present⟩
  · simp only [GroupedCache.lookupFresh, missing, SessionCache.lookupFresh, absent,
      SessionCache.firstError?, List.find?_nil, SessionCache.closest?, List.foldl_nil]
    exact ⟨groups.recordMiss, trivial⟩
  · simp only [GroupedCache.lookupFresh, found, SessionCache.lookupFresh]
    cases SessionCache.firstError? (cache.entriesFor key.name) with
    | some error => exact ⟨groups, rfl⟩
    | none =>
      cases (cache.entriesFor key.name).find? (·.fingerprints == fingerprints) with
      | some entry => exact ⟨groups.recordHit present fingerprints, rfl⟩
      | none =>
        cases SessionCache.closest? fingerprints (cache.entriesFor key.name) with
        | none => exact ⟨groups.recordMiss, rfl⟩
        | some closest =>
          simp only [congrArg CacheConfig.minPrefix groups.config]
          split
          next =>
            exact ⟨groups.withStats fun stats => { stats with partialHits := stats.partialHits + 1 }, rfl⟩
          next => exact ⟨groups.recordMiss, rfl⟩

theorem lookup (groups : Groups cache grouped) (regular : cache.IsRegular config) (now : Duration)
    (key : GrammarKey) (fingerprints : List Fingerprint) :
    Groups (cache.lookup now key fingerprints).1 (grouped.lookup now key fingerprints).1 ∧
      (grouped.lookup now key fingerprints).2 = (cache.lookup now key fingerprints).2 :=
  ((groups.purgeExpired now).invalidateOtherVersions (regular.reduced (.purgeExpired cache now))
    key).lookupFresh key fingerprints

theorem store (groups : Groups cache grouped) (regular : cache.IsRegular config)
    (last : entry.sequence = cache.nextSequence) :
    Groups (cache.store entry) (grouped.store entry) := by
  obtain ⟨kept, evictions⟩ := SessionCache.entriesFor_store_self cache entry
  obtain ⟨-, left, -⟩ := regular.entriesFor_store last rfl
  rw [kept, ← regular.configured] at left
  rw [evict_eq _ (SessionCache.named_beside cache entry) (regular.distinct_beside last)] at kept left
  rw [Nat.eq_sub_of_add_eq' left] at evictions
  simp only [GroupedCache.store, groups.entriesFor_eq, groups.config]
  apply groups_refreshCount
  case configured => rfl
  case sequence => exact congrArg (· + 1) groups.sequence
  case same =>
    intro name
    rw [entriesFor, Std.HashMap.getD_insert]
    split
    next same => rw [← beq_iff_eq.mp same, kept]
    next differ =>
      rw [SessionCache.entriesFor_store_of_ne regular last fun same => differ (beq_iff_eq.mpr same.symm)]
      exact groups.entriesFor_eq name
  case stats =>
    rw [groups.stats, ← evictions]
    rfl

theorem insert (groups : Groups cache grouped) (regular : cache.IsRegular config) (now : Duration)
    (key : GrammarKey) (tokens : List Token) (fingerprints : List Fingerprint) (result : ParseResult) :
    Groups (cache.insert now key tokens fingerprints result).1
        (grouped.insert now key tokens fingerprints result).1 ∧
      (grouped.insert now key tokens fingerprints result).2 =
        (cache.insert now key tokens fingerprints result).2 := by
  simp only [GroupedCache.insert, SessionCache.insert]
  split
  next =>
    exact ⟨groups.withStats fun stats => { stats with uncacheable := stats.uncacheable + 1 }, rfl⟩
  next =>
    rw [groups.sequence]
    exact ⟨groups.store regular rfl, rfl⟩

theorem clear (groups : Groups cache grouped) : Groups cache.clear grouped.clear :=
  ⟨groups.config, congrArg (fun stats => { stats with entries := 0 }) groups.stats, groups.sequence,
    (Groups.empty cache.config).lists⟩

theorem resetStats (groups : Groups cache grouped) : Groups cache.resetStats grouped.resetStats :=
  groups.withStats CacheStats.reset

theorem perform (groups : Groups cache grouped) (regular : cache.IsRegular config)
    (request : CacheRequest) : Groups (cache.perform request) (grouped.perform request) := by
  obtain ⟨now, operation⟩ := request
  cases operation with
  | insert key tokens fingerprints result =>
    exact (groups.insert regular now key tokens fingerprints result).1
  | lookup key fingerprints => exact (groups.lookup regular now key fingerprints).1
  | purgeExpired => exact groups.purgeExpired now
  | invalidateOtherVersions key => exact groups.invalidateOtherVersions regular key
  | clear => exact groups.clear
  | resetStats => exact groups.resetStats

theorem performAll (groups : Groups cache grouped) (regular : cache.IsRegular config)
    (requests : List CacheRequest) : Groups (cache.performAll requests) (grouped.performAll requests) := by
  induction requests generalizing cache grouped with
  | nil => exact groups
  | cons request requests ih => exact ih (groups.perform regular request) (regular.perform request)

end Groups

/-- After any operations a lookup has the same answer in both caches, and an insertion stores in both or in
neither. -/
theorem answers_eq (config : CacheConfig) (requests : List CacheRequest) :
    (∀ now key fingerprints,
      (((empty config).performAll requests).lookup now key fingerprints).2 =
        (((SessionCache.empty config).performAll requests).lookup now key fingerprints).2) ∧
      ∀ now key tokens fingerprints result,
        (((empty config).performAll requests).insert now key tokens fingerprints result).2 =
          (((SessionCache.empty config).performAll requests).insert now key tokens fingerprints
            result).2 := by
  have groups := (Groups.empty config).performAll (.empty config) requests
  have regular := (SessionCache.IsRegular.empty config).performAll requests
  constructor
  · intro now key fingerprints
    exact (groups.lookup regular now key fingerprints).2
  · intro now key tokens fingerprints result
    exact (groups.insert regular now key tokens fingerprints result).2

end GroupedCache

namespace SessionCache

/-- After any operations the entries of every grammar are few, differ from each other and stand in the
order in which they were stored, which is that of their times unless the clock was set back; none is of
a parse that hit a limit; and the cache knows how many there are. A cache with a list for each grammar,
from which lists that become empty are dropped, has these lists and no others. -/
theorem lists_performAll (config : CacheConfig) (requests : List CacheRequest) :
    (∀ list ∈ ((empty config).performAll requests).lists, IsEntryList config list.1 list.2) ∧
      ((requests.map (·.now)).Pairwise (· ≤ ·) →
        ∀ list ∈ ((empty config).performAll requests).lists,
          (list.2.map (·.createdAt)).Pairwise (· ≤ ·)) ∧
      ((empty config).performAll requests).stats.entries =
        (((empty config).performAll requests).lists.map (·.2.length)).sum ∧
      ((GroupedCache.empty config).performAll requests).lists.toList.Perm
        ((empty config).performAll requests).lists ∧
      ((GroupedCache.empty config).performAll requests).stats =
        ((empty config).performAll requests).stats := by
  have regular := (IsRegular.empty config).performAll requests
  have groups := (GroupedCache.Groups.empty config).performAll (.empty config) requests
  refine ⟨?_, ?_, regular.counted.trans (size_eq_sum_lists _), groups.lists.perm, groups.stats⟩
  · intro list member
    obtain ⟨name, listed, rfl⟩ := List.mem_map.mp member
    exact regular.isEntryList listed
  · intro ordered list member
    obtain ⟨name, -, rfl⟩ := List.mem_map.mp member
    have aged : (empty config).IsAged 0 :=
      ⟨List.Pairwise.nil, fun _ inside => absurd inside List.not_mem_nil⟩
    obtain ⟨last, kept⟩ := aged.performAll
      (List.pairwise_cons.mpr ⟨fun _ _ => Nat.zero_le _, ordered⟩)
    exact kept.ascending.sublist (List.filter_sublist.map _)

/-- Three parses are stored in order of time; one more than there is room for. -/
theorem storedSums_inOrder :
    ([storeSum 1 1, storeSum 1 3, storeSum 4 5].map (·.now)).Pairwise (· ≤ ·) ∧
      (((empty { maxEntries := 2 }).performAll [storeSum 1 1, storeSum 1 3, storeSum 4 5]).lists.map
        fun list => (list.1, list.2.map (·.sequence))) = [("sums", [1, 2])] ∧
      ∀ list ∈ ((empty { maxEntries := 2 }).performAll
          [storeSum 1 1, storeSum 1 3, storeSum 4 5]).lists,
        (list.2.map (·.createdAt)).Pairwise (· ≤ ·) :=
  ⟨by decide, by decide +kernel, (lists_performAll _ _).2.1 (by decide)⟩

end SessionCache

end Readings
