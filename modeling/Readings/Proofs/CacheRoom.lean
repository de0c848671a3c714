import Readings.Proofs.GenuineCache

/-! Which entries a cache has room for. It never holds more entries of a grammar than it has room for, so
storing one more removes one at most; and the one that goes is the one just stored, unless another goes
before it: an entry that was not asked for again either and is no younger. -/

namespace Readings

/-- A new entry goes before those that were hit, and before those that seem to come from a later time. -/
theorem CacheEntry.goesBefore_iff {entry other : CacheEntry} (unused : entry.hitCount = 0)
    (last : other.sequence < entry.sequence) :
    entry.goesBefore other = true ↔ ¬ (other.hitCount = 0 ∧ other.createdAt ≤ entry.createdAt) := by
  simp only [goesBefore, unused]
  have third : compare entry.sequence other.sequence = .gt := Nat.compare_eq_gt.mpr last
  rcases Nat.eq_zero_or_pos other.hitCount with none | some
  · rw [none, third]
    rcases Nat.lt_trichotomy entry.createdAt other.createdAt with older | same | younger
    · simp [Nat.compare_eq_lt.mpr older, older]
    · simp [same]
    · simp [Nat.compare_eq_gt.mpr younger, Nat.le_of_lt younger]
  · simp [Nat.compare_eq_lt.mpr some, Nat.ne_of_gt some]

namespace SessionCache

structure IsOrderly (config : CacheConfig) (cache : SessionCache) : Prop where
  configured : cache.config = config
  intact : ∀ entry ∈ cache.entries, entry.defect? = none
  numbered : ∀ entry ∈ cache.entries, entry.sequence < cache.nextSequence
  bounded : ∀ name, cache.entries.countP (·.grammar.name == name) ≤ max config.maxEntries 1

def Has (cache : SessionCache) (name : String) (fingerprints : List Fingerprint) : Prop :=
  ∃ entry ∈ cache.entriesFor name, entry.fingerprints = fingerprints

/-- A parse can be kept: it is there, or its grammar has entries to spare, or one of them would go before
an entry that was stored now. -/
def HasRoom (cache : SessionCache) (now : Duration) (name : String)
    (fingerprints : List Fingerprint) : Prop :=
  cache.Has name fingerprints ∨
    (cache.entriesFor name).length < max cache.config.maxEntries 1 ∨
    ∃ entry ∈ cache.entriesFor name, entry.hitCount = 0 ∧ entry.createdAt ≤ now

variable {config : CacheConfig} {cache : SessionCache} {entry : CacheEntry} {name : String}

theorem mem_entriesFor :
    entry ∈ cache.entriesFor name ↔ entry ∈ cache.entries ∧ entry.grammar.name = name := by
  simp [entriesFor]

theorem length_entriesFor :
    (cache.entriesFor name).length = cache.entries.countP (·.grammar.name == name) :=
  List.countP_eq_length_filter.symm

theorem mem_refresh {now : Duration} {key : GrammarKey} :
    entry ∈ (cache.refresh now key).entries ↔
      entry ∈ cache.entries ∧ cache.isFresh now entry = true ∧ isOutdated key entry = false := by
  simp only [refresh, invalidateOtherVersions, purgeExpired, withEntries, List.mem_filter,
    Bool.not_eq_true', and_assoc]

theorem refresh_has_iff {now : Duration} {key : GrammarKey} {fingerprints : List Fingerprint} :
    (cache.refresh now key).Has key.name fingerprints ↔
      ∃ entry ∈ cache.entries, entry.grammar = key ∧ entry.fingerprints = fingerprints ∧
        cache.isFresh now entry = true := by
  constructor
  · intro has
    obtain ⟨entry, listed, same⟩ := has
    obtain ⟨member, named⟩ := mem_entriesFor.mp listed
    obtain ⟨old, fresh, current⟩ := mem_refresh.mp member
    have version : entry.grammar.version = key.version := by simpa [isOutdated, named] using current
    refine ⟨entry, old, ?_, same, fresh⟩
    cases known : entry.grammar
    rw [known] at named version
    cases named
    cases version
    rfl
  · intro kept
    obtain ⟨entry, old, rfl, same, fresh⟩ := kept
    have current : isOutdated entry.grammar entry = false := by simp [isOutdated]
    exact ⟨entry, mem_entriesFor.mpr ⟨mem_refresh.mpr ⟨old, fresh, current⟩, rfl⟩, same⟩

theorem map_recordHit {α : Type} (known : CacheEntry → α)
    (same : ∀ entry : CacheEntry, known entry.recordHit = known entry) (name : String)
    (fingerprints : List Fingerprint) (entries : List CacheEntry) :
    (recordHit name fingerprints entries).map known = entries.map known := by
  induction entries with
  | nil => rfl
  | cons entry entries ih =>
    rw [recordHit]
    split
    · rw [List.map_cons, List.map_cons, same]
    · rw [List.map_cons, List.map_cons, ih]

theorem length_recordHit (name : String) (fingerprints : List Fingerprint) (entries : List CacheEntry) :
    (recordHit name fingerprints entries).length = entries.length := by
  have same := map_recordHit (fun _ => ()) (fun _ => rfl) name fingerprints entries
  simpa only [List.length_map] using congrArg List.length same

/-- What was found is still there when its hit is counted. -/
theorem Has.recordHit {now : Duration} {key : GrammarKey} {fingerprints : List Fingerprint}
    (has : (cache.refresh now key).Has key.name fingerprints) (stats : CacheStats) :
    ({ cache.refresh now key with
        entries := SessionCache.recordHit key.name fingerprints (cache.refresh now key).entries
        stats }.refresh now key).Has key.name fingerprints := by
  obtain ⟨entry, old, rfl, rfl, fresh⟩ := refresh_has_iff.mp has
  have inside : entry ∈ (cache.refresh now entry.grammar).entries :=
    mem_refresh.mpr ⟨old, fresh, by simp [isOutdated]⟩
  have same := map_recordHit (fun entry => (entry.grammar, entry.fingerprints, entry.createdAt))
    (fun _ => rfl) entry.grammar.name entry.fingerprints (cache.refresh now entry.grammar).entries
  have kept := List.mem_map_of_mem (f := fun entry : CacheEntry =>
    (entry.grammar, entry.fingerprints, entry.createdAt)) inside
  rw [← same, List.mem_map] at kept
  obtain ⟨counted, member, equal⟩ := kept
  obtain ⟨grammar, fingerprints, created⟩ := by simpa only [Prod.mk.injEq] using equal
  refine refresh_has_iff.mpr ⟨counted, member, grammar, fingerprints, ?_⟩
  rw [isFresh, created]
  exact fresh

/-- Behind other entries a new one is the victim exactly if it goes before all of them. -/
theorem victim?_concat (entry : CacheEntry) (others : List CacheEntry) :
    ∃ victim, victim? (others ++ [entry]) = some victim ∧
      (victim = entry ∧ (∀ other ∈ others, entry.goesBefore other = true) ∨
        victim ∈ others ∧ ∃ other ∈ others, entry.goesBefore other = false) := by
  induction others with
  | nil => exact ⟨entry, rfl, Or.inl ⟨rfl, by simp⟩⟩
  | cons first others ih =>
    obtain ⟨victim, found, cause⟩ := ih
    rw [List.cons_append, victim?, found]
    cases before : victim.goesBefore first with
    | true =>
      refine ⟨victim, by simp [before], ?_⟩
      rcases cause with ⟨rfl, all⟩ | ⟨inside, other, member, after⟩
      · exact Or.inl ⟨rfl, List.forall_mem_cons.mpr ⟨before, all⟩⟩
      · exact Or.inr ⟨List.mem_cons_of_mem _ inside, other, List.mem_cons_of_mem _ member, after⟩
    | false =>
      refine ⟨first, by simp [before], Or.inr ⟨List.mem_cons_self, ?_⟩⟩
      rcases cause with ⟨rfl, -⟩ | ⟨-, other, member, after⟩
      · exact ⟨first, List.mem_cons_self, before⟩
      · exact ⟨other, List.mem_cons_of_mem _ member, after⟩

theorem victim?_cases (entries : List CacheEntry) :
    entries = [] ∨ ∃ victim ∈ entries, victim? entries = some victim := by
  rcases List.eq_nil_or_concat entries with none | ⟨others, entry, rfl⟩
  · exact Or.inl none
  · rw [List.concat_eq_append]
    obtain ⟨victim, found, cause⟩ := victim?_concat entry others
    refine Or.inr ⟨victim, ?_, found⟩
    rcases cause with ⟨rfl, -⟩ | ⟨inside, -⟩
    · exact List.mem_concat_self
    · exact List.mem_append_left _ inside

theorem countP_evict_le (name : String) (count : Nat) (entries : List CacheEntry) :
    (evict name count entries).countP (·.grammar.name == name) ≤
      entries.countP (·.grammar.name == name) - count := by
  induction count generalizing entries with
  | zero => exact Nat.le_refl _
  | succ count ih =>
    rw [evict]
    rcases victim?_cases (entries.filter (·.grammar.name == name)) with none | ⟨victim, member, found⟩
    · rw [none, victim?, List.countP_eq_length_filter, none]
      exact Nat.zero_le _
    · rw [found]
      obtain ⟨inside, named⟩ := List.mem_filter.mp member
      have fewer : (entries.filter (·.sequence != victim.sequence)).countP (·.grammar.name == name) <
          entries.countP (·.grammar.name == name) := by
        rw [List.countP_eq_countP_filter_add entries _ (·.sequence != victim.sequence)]
        apply Nat.lt_add_of_pos_right
        exact List.countP_pos_iff.mpr ⟨victim, List.mem_filter.mpr ⟨inside, by simp⟩, named⟩
      have rest := ih (entries.filter (·.sequence != victim.sequence))
      dsimp only
      omega

theorem countP_store_le (entry : CacheEntry)
    (bounded : cache.entries.countP (·.grammar.name == name) ≤ max cache.config.maxEntries 1) :
    (cache.store entry).entries.countP (·.grammar.name == name) ≤ max cache.config.maxEntries 1 := by
  simp only [store]
  by_cases own : entry.grammar.name = name
  · subst own
    generalize cache.entries.filter _ ++ [entry] = entries
    have left := countP_evict_le entry.grammar.name
      (entries.countP (·.grammar.name == entry.grammar.name) - max cache.config.maxEntries 1) entries
    omega
  · refine Nat.le_trans (evict_sublist _ _ _).countP_le ?_
    rw [List.countP_append, List.countP_singleton, if_neg (by simpa using own), Nat.add_zero]
    exact Nat.le_trans List.filter_sublist.countP_le bounded

theorem filter_concat (entry : CacheEntry) :
    (cache.entries ++ [entry]).filter (·.grammar.name == entry.grammar.name) =
      cache.entriesFor entry.grammar.name ++ [entry] := by
  simp [entriesFor]

/-- An entry that replaces none stands behind the others until some have to go. -/
theorem store_eq (lacks : ¬ cache.Has entry.grammar.name entry.fingerprints) :
    cache.store entry =
      let excess := (cache.entriesFor entry.grammar.name).length + 1 - max cache.config.maxEntries 1
      let kept := evict entry.grammar.name excess (cache.entries ++ [entry])
      { cache with
        entries := kept
        stats := { cache.stats with
          evictions := cache.stats.evictions + excess, entries := kept.length }
        nextSequence := cache.nextSequence + 1 } := by
  have alone : (cache.entries.filter fun known =>
      known.grammar.name != entry.grammar.name || known.fingerprints != entry.fingerprints) =
      cache.entries := by
    rw [List.filter_eq_self]
    intro known member
    by_contra same
    simp only [Bool.or_eq_true, bne_iff_ne, not_or, not_not] at same
    exact lacks ⟨known, mem_entriesFor.mpr ⟨member, same.1⟩, same.2⟩
  simp only [store, alone]
  rw [List.countP_eq_length_filter, filter_concat, List.length_append, List.length_singleton]

theorem store_entries (lacks : ¬ cache.Has entry.grammar.name entry.fingerprints) :
    (cache.store entry).entries =
      evict entry.grammar.name
        ((cache.entriesFor entry.grammar.name).length + 1 - max cache.config.maxEntries 1)
        (cache.entries ++ [entry]) := by
  rw [store_eq lacks]

/-- If one entry has to go, a new one stays exactly if another that was not hit is no younger. -/
theorem mem_evict_iff (unused : entry.hitCount = 0)
    (last : ∀ other ∈ cache.entries, other.sequence < entry.sequence) :
    entry ∈ evict entry.grammar.name 1 (cache.entries ++ [entry]) ↔
      ∃ other ∈ cache.entriesFor entry.grammar.name,
        other.hitCount = 0 ∧ other.createdAt ≤ entry.createdAt := by
  have older : ∀ other ∈ cache.entriesFor entry.grammar.name, other.sequence < entry.sequence :=
    fun other member => last other (mem_entriesFor.mp member).1
  obtain ⟨victim, found, cause⟩ := victim?_concat entry (cache.entriesFor entry.grammar.name)
  have stays : entry ∈ evict entry.grammar.name 1 (cache.entries ++ [entry]) ↔
      entry.sequence ≠ victim.sequence := by
    rw [evict, filter_concat, found]
    simp [evict]
  rw [stays]
  rcases cause with ⟨rfl, all⟩ | ⟨inside, other, member, behind⟩
  · apply iff_of_false (fun different => different rfl)
    rintro ⟨other, member, rest⟩
    exact (CacheEntry.goesBefore_iff unused (older other member)).mp (all other member) rest
  · apply iff_of_true (Nat.ne_of_gt (older victim inside))
    refine ⟨other, member, ?_⟩
    by_contra rest
    rw [(CacheEntry.goesBefore_iff unused (older other member)).mpr rest] at behind
    cases behind

namespace IsOrderly

theorem refresh (orderly : cache.IsOrderly config) (now : Duration) (key : GrammarKey) :
    (cache.refresh now key).IsOrderly config where
  configured := orderly.configured
  intact := fun entry member => orderly.intact entry ((refresh_sublist now key).subset member)
  numbered := fun entry member => orderly.numbered entry ((refresh_sublist now key).subset member)
  bounded := fun name => Nat.le_trans (refresh_sublist now key).countP_le (orderly.bounded name)

theorem withStats (orderly : cache.IsOrderly config) (stats : CacheStats) :
    { cache with stats }.IsOrderly config :=
  ⟨orderly.configured, orderly.intact, orderly.numbered, orderly.bounded⟩

theorem recordHit (orderly : cache.IsOrderly config) (name : String)
    (fingerprints : List Fingerprint) (stats : CacheStats) :
    { cache with entries := recordHit name fingerprints cache.entries, stats }.IsOrderly config where
  configured := orderly.configured
  intact := fun entry member => by
    obtain ⟨old, inside, rfl | rfl⟩ := mem_recordHit member
    · exact orderly.intact _ inside
    · exact orderly.intact old inside
  numbered := fun entry member => by
    obtain ⟨old, inside, rfl | rfl⟩ := mem_recordHit member
    · exact orderly.numbered _ inside
    · exact orderly.numbered old inside
  bounded := fun other => by
    have same := map_recordHit (fun entry => entry.grammar.name) (fun _ => rfl) name fingerprints
      cache.entries
    have counted : ∀ entries : List CacheEntry, entries.countP (·.grammar.name == other) =
        (entries.map fun entry => entry.grammar.name).countP (· == other) :=
      fun entries => by rw [List.countP_map]; rfl
    rw [counted, same, ← counted]
    exact orderly.bounded other

theorem store (orderly : cache.IsOrderly config) (intact : entry.defect? = none)
    (last : entry.sequence = cache.nextSequence) : (cache.store entry).IsOrderly config where
  configured := orderly.configured
  intact := fun other member => by
    rcases List.mem_cons.mp (store_subset entry member) with rfl | old
    · exact intact
    · exact orderly.intact other old
  numbered := fun other member => by
    rcases List.mem_cons.mp (store_subset entry member) with rfl | old
    · exact Nat.lt_succ_of_le (Nat.le_of_eq last)
    · exact Nat.lt_succ_of_lt (orderly.numbered other old)
  bounded := fun name => by
    have room := orderly.bounded name
    rw [← orderly.configured] at room ⊢
    exact countP_store_le entry room

theorem mem_store_iff (orderly : cache.IsOrderly config) (unused : entry.hitCount = 0)
    (last : entry.sequence = cache.nextSequence)
    (lacks : ¬ cache.Has entry.grammar.name entry.fingerprints) :
    entry ∈ (cache.store entry).entries ↔
      cache.HasRoom entry.createdAt entry.grammar.name entry.fingerprints := by
  have bounded := orderly.bounded entry.grammar.name
  rw [← length_entriesFor] at bounded
  rw [store_entries lacks, HasRoom, orderly.configured]
  simp only [lacks, false_or]
  rcases Nat.lt_or_eq_of_le bounded with spare | full
  · have none : (cache.entriesFor entry.grammar.name).length + 1 - max config.maxEntries 1 = 0 := by
      omega
    rw [none, evict]
    exact iff_of_true List.mem_concat_self (Or.inl spare)
  · have one : (cache.entriesFor entry.grammar.name).length + 1 - max config.maxEntries 1 = 1 := by
      omega
    rw [one, mem_evict_iff unused fun other member => last ▸ orderly.numbered other member]
    exact (or_iff_right (Nat.not_lt.mpr (Nat.le_of_eq full.symm))).symm

/-- An entry stored now is found again exactly if there was room for it. -/
theorem store_has_iff (orderly : cache.IsOrderly config) (lasting : 0 < config.timeToLive)
    (unused : entry.hitCount = 0) (last : entry.sequence = cache.nextSequence)
    (lacks : ¬ cache.Has entry.grammar.name entry.fingerprints) :
    ((cache.store entry).refresh entry.createdAt entry.grammar).Has entry.grammar.name
        entry.fingerprints ↔
      cache.HasRoom entry.createdAt entry.grammar.name entry.fingerprints := by
  rw [refresh_has_iff, ← orderly.mem_store_iff unused last lacks]
  constructor
  · rintro ⟨other, member, key, same, -⟩
    rcases List.mem_cons.mp (store_subset entry member) with rfl | old
    · exact member
    · exact absurd ⟨other, mem_entriesFor.mpr ⟨old, by rw [key]⟩, same⟩ lacks
  · intro member
    refine ⟨entry, member, rfl, rfl, ?_⟩
    have same : (cache.store entry).config = config := orderly.configured
    simpa [isFresh, same] using lasting

theorem insert (orderly : cache.IsOrderly config) (now : Duration) {grammar : Grammar}
    {settings : ChartConfig} {tokens : List Token} {result : ParseResult}
    (parsed : grammar.parse settings tokens.toArray = .ok result) :
    (cache.insert now grammar.key tokens (Fingerprint.ofTokens tokens) result).1.IsOrderly config := by
  simp only [SessionCache.insert]
  split
  next => exact orderly.withStats _
  next within =>
    have genuine : CacheEntry.IsGenuine grammar settings
        ⟨grammar.key, tokens, Fingerprint.ofTokens tokens, result, now, 0, cache.nextSequence⟩ :=
      ⟨rfl, rfl, parsed, by simpa using within⟩
    exact orderly.store genuine.defect?_eq rfl

end IsOrderly

inductive CountsMiss (stats : CacheStats) : CacheStats → Prop where
  | shared : CountsMiss stats { stats with partialHits := stats.partialHits + 1 }
  | missed : CountsMiss stats { stats with misses := stats.misses + 1 }

theorem CountsMiss.entries_eq {before after : CacheStats} (counted : CountsMiss before after) :
    after.entries = before.entries := by
  cases counted <;> rfl

/-- What becomes of a cache in which something is looked up, and the answer. -/
inductive Looked (cache : SessionCache) (name : String) (fingerprints : List Fingerprint) :
    SessionCache × Except CacheError CacheLookup → Prop where
  | found {result : ParseResult} (has : cache.Has name fingerprints) :
      Looked cache name fingerprints
        ({ cache with
            entries := recordHit name fingerprints cache.entries
            stats := { cache.stats with hits := cache.stats.hits + 1 } }, .ok (.full result))
  | absent {answer : CacheLookup} {stats : CacheStats} (lacks : ¬ cache.Has name fingerprints)
      (partly : ∀ result, answer ≠ .full result) (counted : CountsMiss cache.stats stats) :
      Looked cache name fingerprints ({ cache with stats }, .ok answer)

theorem lookupFresh_looked {key : GrammarKey} (intact : firstError? (cache.entriesFor key.name) = none)
    (fingerprints : List Fingerprint) :
    Looked cache key.name fingerprints (cache.lookupFresh key fingerprints) := by
  simp only [lookupFresh, intact]
  split
  next entry found =>
    exact .found ⟨entry, List.mem_of_find?_eq_some found, by simpa using List.find?_some found⟩
  next missing =>
    have lacks : ¬ cache.Has key.name fingerprints := by
      rintro ⟨entry, member, same⟩
      simpa [same] using List.find?_eq_none.mp missing entry member
    split
    · exact .absent lacks (fun _ same => by cases same) .missed
    · split
      · exact .absent lacks (fun _ same => by cases same) .shared
      · exact .absent lacks (fun _ same => by cases same) .missed

theorem IsOrderly.looked (orderly : cache.IsOrderly config) (now : Duration) (key : GrammarKey)
    (fingerprints : List Fingerprint) :
    Looked (cache.refresh now key) key.name fingerprints (cache.lookup now key fingerprints) :=
  lookupFresh_looked (firstError?_eq fun entry member =>
    (orderly.refresh now key).intact entry (mem_entriesFor.mp member).1) fingerprints

end SessionCache

end Readings
