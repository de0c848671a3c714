import Readings.Proofs.CacheLookups

/-! Grammars in one cache. All entries stand in one list, but each belongs to a grammar by its name and has
a number of its own; so an eviction takes an entry of the grammar that needs the room and no other, and
counts none but those. What an operation on one grammar does to the others is to drop what has reached
its age. -/

namespace Readings

namespace SessionCache

/-- The cache without the entries of other grammars. -/
def alone (cache : SessionCache) (name : String) : SessionCache :=
  cache.withEntries (cache.entriesFor name)

variable {config : CacheConfig} {cache : SessionCache} {entry : CacheEntry} {name other : String}

theorem entriesFor_alone (cache : SessionCache) (name : String) :
    (cache.alone name).entriesFor name = cache.entriesFor name := by
  simp [alone, withEntries, entriesFor]

theorem filter_evict (name : String) (count : Nat) (entries : List CacheEntry) :
    (evict name count entries).filter (·.grammar.name == name) =
      evict name count (entries.filter (·.grammar.name == name)) := by
  induction count generalizing entries with
  | zero => rfl
  | succ count ih =>
    rw [evict, evict, List.filter_filter]
    simp only [Bool.and_self]
    split
    next => rfl
    next victim _ => rw [ih, List.filter_comm]

theorem filter_evict_of_ne (differ : other ≠ name) (count : Nat) {entries : List CacheEntry}
    (distinct : (entries.map (·.sequence)).Nodup) :
    (evict name count entries).filter (·.grammar.name == other) =
      entries.filter (·.grammar.name == other) := by
  induction count generalizing entries with
  | zero => rfl
  | succ count ih =>
    rw [evict]
    rcases victim?_cases (entries.filter (·.grammar.name == name)) with none | ⟨victim, member, found⟩
    · rw [none]
      rfl
    · obtain ⟨inside, named⟩ := List.mem_filter.mp member
      have fewer : ((entries.filter (·.sequence != victim.sequence)).map (·.sequence)).Nodup :=
        distinct.sublist (List.filter_sublist.map _)
      rw [found]
      simp only
      rw [ih fewer, List.filter_filter]
      apply List.filter_congr
      intro entry listed
      cases theirs : entry.grammar.name == other with
      | false => rfl
      | true =>
        have apart : entry ≠ victim := by
          rintro rfl
          exact differ ((beq_iff_eq.mp theirs).symm.trans (beq_iff_eq.mp named))
        have numbers : entry.sequence ≠ victim.sequence := fun same =>
          apart (List.inj_on_of_nodup_map distinct listed inside same)
        simp [numbers]

theorem filter_beside (cache : SessionCache) (entry : CacheEntry) :
    (cache.entries.filter (fun known => known.grammar.name != entry.grammar.name ||
        known.fingerprints != entry.fingerprints) ++ [entry]).filter
          (·.grammar.name == entry.grammar.name) =
      (cache.entriesFor entry.grammar.name).filter (·.differsFrom entry.fingerprints) ++ [entry] := by
  have own : [entry].filter (·.grammar.name == entry.grammar.name) = [entry] := by simp
  rw [List.filter_append, own, List.filter_filter, entriesFor, List.filter_filter]
  refine congrArg (· ++ [entry]) (List.filter_congr fun known _ => ?_)
  cases named : known.grammar.name == entry.grammar.name with
  | true => simp [CacheEntry.differsFrom, bne, named]
  | false => simp

theorem named_beside (cache : SessionCache) (entry : CacheEntry) :
    ∀ known ∈ (cache.entriesFor entry.grammar.name).filter (·.differsFrom entry.fingerprints) ++ [entry],
      known.grammar.name = entry.grammar.name := by
  intro known member
  rcases List.mem_append.mp member with old | new
  · exact (mem_entriesFor.mp (List.mem_of_mem_filter old)).2
  · rw [List.mem_singleton.mp new]

theorem IsRegular.distinct_beside (regular : cache.IsRegular config)
    (last : entry.sequence = cache.nextSequence) :
    (((cache.entriesFor entry.grammar.name).filter (·.differsFrom entry.fingerprints) ++
      [entry]).map (·.sequence)).Nodup := by
  have part := (List.filter_sublist (p := (·.differsFrom entry.fingerprints))).trans
    (List.filter_sublist (l := cache.entries) (p := (·.grammar.name == entry.grammar.name)))
  exact (regular.nodup_concat last).sublist ((part.append_right [entry]).map _)

/-- What storing an entry leaves of its grammar depends on the entries of the grammar alone. -/
theorem entriesFor_store_self (cache : SessionCache) (entry : CacheEntry) :
    let listed := (cache.entriesFor entry.grammar.name).filter (·.differsFrom entry.fingerprints) ++ [entry]
    let excess := listed.length - max cache.config.maxEntries 1
    (cache.store entry).entriesFor entry.grammar.name = evict entry.grammar.name excess listed ∧
      (cache.store entry).stats.evictions = cache.stats.evictions + excess := by
  intro listed excess
  have mine := filter_beside cache entry
  constructor
  · rw [entriesFor, store, filter_evict, List.countP_eq_length_filter, mine]
  · simp only [store, List.countP_eq_length_filter, mine]
    rfl

/-- Storing an entry does to its grammar what it does in a cache without the others. -/
theorem store_alone (cache : SessionCache) (entry : CacheEntry) :
    (cache.store entry).entriesFor entry.grammar.name =
        ((cache.alone entry.grammar.name).store entry).entriesFor entry.grammar.name ∧
      (cache.store entry).stats.evictions =
        ((cache.alone entry.grammar.name).store entry).stats.evictions := by
  obtain ⟨kept, counted⟩ := entriesFor_store_self cache entry
  obtain ⟨keptAlone, countedAlone⟩ := entriesFor_store_self (cache.alone entry.grammar.name) entry
  rw [entriesFor_alone] at keptAlone countedAlone
  exact ⟨kept.trans keptAlone.symm, counted.trans countedAlone.symm⟩

theorem entriesFor_store_of_ne (regular : cache.IsRegular config)
    (last : entry.sequence = cache.nextSequence) (differ : name ≠ entry.grammar.name) :
    (cache.store entry).entriesFor name = cache.entriesFor name := by
  have behind : [entry].filter (·.grammar.name == name) = [] := by simp [differ.symm]
  rw [entriesFor, store, filter_evict_of_ne differ]
  · rw [List.filter_append, behind, List.append_nil, List.filter_filter]
    refine List.filter_congr fun known _ => ?_
    cases theirs : known.grammar.name == name with
    | false => rfl
    | true => simp [beq_iff_eq.mp theirs, differ]
  · exact (regular.nodup_concat last).sublist ((List.filter_sublist.append_right _).map _)

/-- After any operations, what is stored, looked up or invalidated for one grammar leaves the entries of
every other as they are, with their hits and in their order, but for a lookup, which drops those that have
reached their age, whatever it answers. Nor do the others count: to its own grammar an insertion does what
it does where there are no others. -/
theorem grammars_apart (config : CacheConfig) (requests : List CacheRequest) (key : GrammarKey)
    {name : String} (differ : name ≠ key.name) :
    let cache := (empty config).performAll requests
    (∀ now tokens fingerprints result,
      let stored := (cache.insert now key tokens fingerprints result).1
      let alone := ((cache.alone key.name).insert now key tokens fingerprints result).1
      stored.entriesFor name = cache.entriesFor name ∧
        stored.entriesFor key.name = alone.entriesFor key.name ∧
        stored.stats.evictions = alone.stats.evictions) ∧
      (∀ now fingerprints,
        (cache.lookup now key fingerprints).1.entriesFor name =
          (cache.entriesFor name).filter fun entry =>
            decide (now - entry.createdAt < config.timeToLive)) ∧
      (cache.invalidateOtherVersions key).entriesFor name = cache.entriesFor name := by
  intro cache
  have regular : cache.IsRegular config := (IsRegular.empty config).performAll requests
  refine ⟨?_, ?_, entriesFor_invalidateOtherVersions_of_ne cache differ⟩
  · intro now tokens fingerprints result
    simp only [insert]
    split
    next => exact ⟨rfl, (entriesFor_alone cache key.name).symm, rfl⟩
    next => exact ⟨entriesFor_store_of_ne regular rfl differ, store_alone cache _⟩
  · intro now fingerprints
    rw [entriesFor_lookup_of_ne cache now differ, ← regular.configured]
    rfl

def storeProduct (now : Duration) (count : Nat) : CacheRequest :=
  let tokens := threeOnes.toList.take count
  ⟨now, .insert ⟨"products", "1"⟩ tokens (Fingerprint.ofTokens tokens)
    ⟨Chart.build sums {} tokens.toArray, default⟩⟩

/-- The product makes room for a longer one, and the sum that was stored before both stays. -/
theorem storedProduct_apart :
    let cache := (empty { maxEntries := 1 }).performAll [storeSum 1 1, storeProduct 2 1]
    let tokens := threeOnes.toList.take 3
    let next := (cache.insert 3 ⟨"products", "1"⟩ tokens (Fingerprint.ofTokens tokens)
      ⟨Chart.build sums {} tokens.toArray, default⟩).1
    "sums" ≠ "products" ∧ next.stats.evictions = 1 ∧
      (next.entriesFor "products").map (·.sequence) = [2] ∧
      (next.entriesFor "sums").map (·.sequence) = [0] ∧
      next.entriesFor "sums" = cache.entriesFor "sums" := by
  intro cache tokens next
  have differ : "sums" ≠ "products" := by decide
  have kept : next.entriesFor "sums" = cache.entriesFor "sums" :=
    ((grammars_apart { maxEntries := 1 } [storeSum 1 1, storeProduct 2 1] ⟨"products", "1"⟩
      differ).1 3 tokens _ _).1
  exact ⟨differ, by decide +kernel, by decide +kernel, by decide +kernel, kept⟩

end SessionCache

end Readings
