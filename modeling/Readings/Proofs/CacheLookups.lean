import Readings.Proofs.CacheInvariant

/-! What a lookup in a cache finds. Of the entries of a grammar it looks at those of the right version
that have not reached their age, and drops the others. An entry for the same tokens is a full hit; if
there is none, the first of those that share the most tokens at the start is a partial hit, if these are
enough; and everything else is a miss. -/

namespace Readings

namespace SessionCache

def current (cache : SessionCache) (now : Duration) (key : GrammarKey) : List CacheEntry :=
  (cache.entriesFor key.name).filter fun entry =>
    decide (entry.grammar.version = key.version ∧ now - entry.createdAt < cache.config.timeToLive)

/-- What a lookup answers that looks at some entries, and what it leaves of them. -/
inductive Classifies (config : CacheConfig) (fingerprints : List Fingerprint)
    (entries : List CacheEntry) : CacheLookup → List CacheEntry → Prop where
  | full {before later : List CacheEntry} {entry : CacheEntry}
      (split : entries = before ++ entry :: later) (same : entry.fingerprints = fingerprints)
      (only : ∀ other ∈ before ++ later, other.fingerprints ≠ fingerprints) :
      Classifies config fingerprints entries (.full entry.result)
        (before ++ { entry with hitCount := min (entry.hitCount + 1) hitCountMax } :: later)
  | shared {before later : List CacheEntry} {entry : CacheEntry} {count : Nat}
      (none : ∀ other ∈ entries, other.fingerprints ≠ fingerprints)
      (split : entries = before ++ entry :: later)
      (reached : commonPrefix entry.fingerprints fingerprints = count)
      (first : ∀ other ∈ before, commonPrefix other.fingerprints fingerprints < count)
      (longest : ∀ other ∈ later, commonPrefix other.fingerprints fingerprints ≤ count)
      (leading : (TokenDiff.between entry.fingerprints fingerprints).leading = count)
      (enough : max config.minPrefix 1 ≤ count) :
      Classifies config fingerprints entries
        (.shared count (TokenDiff.between entry.fingerprints fingerprints)) entries
  | miss (none : ∀ other ∈ entries, other.fingerprints ≠ fingerprints)
      (short : ∀ other ∈ entries,
        commonPrefix other.fingerprints fingerprints < max config.minPrefix 1) :
      Classifies config fingerprints entries .miss entries

variable {config : CacheConfig} {cache : SessionCache} {entry : CacheEntry} {name : String}
  {fingerprints : List Fingerprint}

private theorem shared_le {before later : List CacheEntry} {count : Nat}
    (reached : commonPrefix entry.fingerprints fingerprints = count)
    (first : ∀ other ∈ before, commonPrefix other.fingerprints fingerprints < count)
    (longest : ∀ other ∈ later, commonPrefix other.fingerprints fingerprints ≤ count) :
    ∀ other ∈ before ++ entry :: later, commonPrefix other.fingerprints fingerprints ≤ count := by
  intro other member
  rcases List.mem_append.mp member with early | late
  · exact Nat.le_of_lt (first other early)
  · rcases List.mem_cons.mp late with rfl | behind
    · exact Nat.le_of_eq reached
    · exact longest other behind

/-- The closest entry shares more than those before it, and no less than those behind it. -/
theorem closest?_cases (fingerprints : List Fingerprint) (entries : List CacheEntry) :
    entries = [] ∧ closest? fingerprints entries = none ∨
      ∃ before entry later, entries = before ++ entry :: later ∧
        closest? fingerprints entries =
          some (entry, commonPrefix entry.fingerprints fingerprints) ∧
        (∀ other ∈ before, commonPrefix other.fingerprints fingerprints <
          commonPrefix entry.fingerprints fingerprints) ∧
        ∀ other ∈ later, commonPrefix other.fingerprints fingerprints ≤
          commonPrefix entry.fingerprints fingerprints := by
  induction entries using List.reverseRecOn with
  | nil => exact Or.inl ⟨rfl, rfl⟩
  | append_singleton entries entry ih =>
    refine Or.inr ?_
    rw [closest?, List.foldl_append, ← closest?, List.foldl_cons, List.foldl_nil]
    rcases ih with ⟨rfl, nothing⟩ | ⟨before, known, later, rfl, found, first, longest⟩
    · rw [nothing]
      exact ⟨[], entry, [], rfl, rfl, by simp, by simp⟩
    · rw [found]
      dsimp only
      split
      next more =>
        refine ⟨_, entry, [], rfl, rfl, ?_, by simp⟩
        exact fun other member => Nat.lt_of_le_of_lt (shared_le rfl first longest other member) more
      next less =>
        refine ⟨before, known, later ++ [entry], by simp, rfl, first, ?_⟩
        intro other member
        rcases List.mem_append.mp member with early | late
        · exact longest other early
        · exact List.mem_singleton.mp late ▸ Nat.not_lt.mp less

theorem recordHit_split {before later : List CacheEntry}
    (different : ∀ other ∈ before, other.fingerprints ≠ fingerprints)
    (named : entry.grammar.name = name) (same : entry.fingerprints = fingerprints) :
    recordHit name fingerprints (before ++ entry :: later) = before ++ entry.recordHit :: later := by
  induction before with
  | nil => simp [recordHit, named, same]
  | cons other before ih =>
    obtain ⟨here, rest⟩ := List.forall_mem_cons.mp different
    simp [recordHit, here, ih rest]

theorem filter_recordHit (entries : List CacheEntry) :
    (recordHit name fingerprints entries).filter (·.grammar.name == name) =
      recordHit name fingerprints (entries.filter (·.grammar.name == name)) := by
  induction entries with
  | nil => rfl
  | cons entry entries ih =>
    by_cases named : entry.grammar.name = name
    · by_cases same : entry.fingerprints = fingerprints
      · simp [recordHit, CacheEntry.recordHit, named, same]
      · simp [recordHit, named, same, ih]
    · simp [recordHit, named, ih]

theorem filter_recordHit_of_ne {other : String} (differ : other ≠ name) (entries : List CacheEntry) :
    (recordHit name fingerprints entries).filter (·.grammar.name == other) =
      entries.filter (·.grammar.name == other) := by
  induction entries with
  | nil => rfl
  | cons entry entries ih =>
    rw [recordHit]
    split
    next hit =>
      simp only [Bool.and_eq_true, beq_iff_eq] at hit
      simp [CacheEntry.recordHit, hit.1, differ.symm]
    next => rw [List.filter_cons, List.filter_cons, ih]

theorem entriesFor_purgeExpired (cache : SessionCache) (now : Duration) (name : String) :
    (cache.purgeExpired now).entriesFor name = (cache.entriesFor name).filter (cache.isFresh now) :=
  List.filter_comm _ _ _

theorem entriesFor_invalidateOtherVersions (cache : SessionCache) (key : GrammarKey) :
    (cache.invalidateOtherVersions key).entriesFor key.name =
      (cache.entriesFor key.name).filter (·.grammar.version == key.version) := by
  simp only [entriesFor, invalidateOtherVersions, withEntries, List.filter_filter]
  apply List.filter_congr
  intro entry _
  cases named : entry.grammar.name == key.name with
  | true => simp [isOutdated, named, bne]
  | false => simp

theorem entriesFor_refresh (cache : SessionCache) (now : Duration) (key : GrammarKey) :
    (cache.refresh now key).entriesFor key.name = cache.current now key := by
  rw [refresh, entriesFor_invalidateOtherVersions, entriesFor_purgeExpired, List.filter_filter, current]
  exact List.filter_congr fun entry _ => by simp [isFresh, Bool.beq_eq_decide_eq]

theorem entriesFor_invalidateOtherVersions_of_ne (cache : SessionCache) {key : GrammarKey}
    (differ : name ≠ key.name) :
    (cache.invalidateOtherVersions key).entriesFor name = cache.entriesFor name := by
  simp only [entriesFor, invalidateOtherVersions, withEntries, List.filter_filter]
  apply List.filter_congr
  intro entry _
  cases named : entry.grammar.name == name with
  | true => simp [isOutdated, beq_iff_eq.mp named, differ]
  | false => simp

theorem IsRegular.invalidateOtherVersions_eq_self (regular : cache.IsRegular config) {key : GrammarKey}
    (absent : cache.entriesFor key.name = []) : cache.invalidateOtherVersions key = cache := by
  have kept : (cache.entries.filter fun entry => !isOutdated key entry) = cache.entries := by
    refine List.filter_eq_self.mpr fun entry member => ?_
    have other : entry.grammar.name ≠ key.name := fun named =>
      List.ne_nil_of_mem (mem_entriesFor.mpr ⟨member, named⟩) absent
    simp [isOutdated, other]
  have counted : cache.stats.entries = cache.entries.length := regular.counted
  simp only [invalidateOtherVersions, withEntries, kept, size, Nat.sub_self, Nat.add_zero, ← counted]

theorem entriesFor_lookupFresh_of_ne (cache : SessionCache) {key : GrammarKey}
    (differ : name ≠ key.name) :
    (cache.lookupFresh key fingerprints).1.entriesFor name = cache.entriesFor name := by
  simp only [lookupFresh]
  split
  next => rfl
  next =>
    split
    next => exact filter_recordHit_of_ne differ cache.entries
    next =>
      split
      next => rfl
      next => split <;> rfl

theorem entriesFor_lookup_of_ne (cache : SessionCache) (now : Duration) {key : GrammarKey}
    (differ : name ≠ key.name) :
    (cache.lookup now key fingerprints).1.entriesFor name =
      (cache.entriesFor name).filter (cache.isFresh now) := by
  rw [lookup, entriesFor_lookupFresh_of_ne _ differ, refresh,
    entriesFor_invalidateOtherVersions_of_ne _ differ, entriesFor_purgeExpired]

/-- An entry that is found is the only one for the tokens, and its hit is counted. -/
private theorem classifies_of_found (regular : cache.IsRegular config)
    (found : (cache.entriesFor name).find? (·.fingerprints == fingerprints) = some entry) :
    Classifies config fingerprints (cache.entriesFor name) (.full entry.result)
      ((recordHit name fingerprints cache.entries).filter (·.grammar.name == name)) := by
  obtain ⟨same, before, later, split, different⟩ := List.find?_eq_some_iff_append.mp found
  have different : ∀ other ∈ before, other.fingerprints ≠ fingerprints := by simpa using different
  have same : entry.fingerprints = fingerprints := beq_iff_eq.mp same
  have named := (mem_entriesFor.mp (List.mem_of_find?_eq_some found)).2
  rw [filter_recordHit, ← entriesFor, split, recordHit_split different named same]
  refine .full rfl same ?_
  have distinct := regular.distinct_entriesFor name
  rw [split, List.map_append, List.map_cons, List.nodup_middle, ← List.map_append, same] at distinct
  intro other member equal
  exact (List.nodup_cons.mp distinct).1 (equal ▸ List.mem_map_of_mem member)

private theorem lookupFresh_classifies (regular : cache.IsRegular config) (key : GrammarKey)
    (fingerprints : List Fingerprint)
    (intact : ∀ entry ∈ cache.entriesFor key.name, entry.defect? = none) :
    ∃ answer, (cache.lookupFresh key fingerprints).2 = .ok answer ∧
      Classifies config fingerprints (cache.entriesFor key.name) answer
        ((cache.lookupFresh key fingerprints).1.entriesFor key.name) := by
  simp only [lookupFresh, firstError?_eq intact]
  split
  next entry found =>
    exact ⟨_, rfl, classifies_of_found regular found⟩
  next missing =>
    have none : ∀ other ∈ cache.entriesFor key.name, other.fingerprints ≠ fingerprints := by
      intro other member same
      simpa [same] using List.find?_eq_none.mp missing other member
    rcases closest?_cases fingerprints (cache.entriesFor key.name) with
      ⟨empty, nothing⟩ | ⟨before, entry, later, split, found, first, longest⟩
    · simp only [nothing]
      exact ⟨_, rfl, .miss none (by simp [empty])⟩
    · simp only [found]
      split
      next enough =>
        refine ⟨_, rfl, .shared none split rfl first longest rfl ?_⟩
        rw [← regular.configured]
        omega
      next short =>
        refine ⟨_, rfl, .miss none ?_⟩
        rw [regular.configured] at short
        intro other member
        have below := shared_le rfl first longest other (split ▸ member)
        omega

/-- A lookup in a cache after any operations finds exactly what there is: the entry for the same tokens,
or the first that shares the most tokens at the start, if these are enough. It drops the entries of other
versions and those that have reached their age, and changes nothing else but the count of a hit. -/
theorem lookup_exact (config : CacheConfig) (requests : List CacheRequest) (now : Duration)
    (key : GrammarKey) (fingerprints : List Fingerprint)
    (intact : ∀ entry ∈ ((empty config).performAll requests).current now key, entry.defect? = none) :
    ∃ answer,
      (((empty config).performAll requests).lookup now key fingerprints).2 = .ok answer ∧
      Classifies config fingerprints (((empty config).performAll requests).current now key) answer
        ((((empty config).performAll requests).lookup now key fingerprints).1.entriesFor key.name) ∧
      ∀ name ≠ key.name,
        (((empty config).performAll requests).lookup now key fingerprints).1.entriesFor name =
          (((empty config).performAll requests).entriesFor name).filter
            (((empty config).performAll requests).isFresh now) := by
  have regular := ((IsRegular.empty config).performAll requests).reduced
    (IsReduced.refresh _ now key)
  rw [← entriesFor_refresh] at intact ⊢
  obtain ⟨answer, found, classifies⟩ := lookupFresh_classifies regular key fingerprints intact
  exact ⟨answer, found, classifies, fun name differ => entriesFor_lookup_of_ne _ now differ⟩

/-- Two parses are stored, and the whole sum is looked up before they reach their age. -/
theorem storedSums_lookedUp :
    (∀ entry ∈ ((empty {}).performAll [storeSum 1 1, storeSum 2 3]).current 3 sums.key,
      entry.defect? = none) ∧
    ∃ answer,
      (((empty {}).performAll [storeSum 1 1, storeSum 2 3]).lookup 3 sums.key
        (Fingerprint.ofTokens threeOnes.toList)).2 = .ok answer ∧
      Classifies {} (Fingerprint.ofTokens threeOnes.toList)
        (((empty {}).performAll [storeSum 1 1, storeSum 2 3]).current 3 sums.key) answer
        ((((empty {}).performAll [storeSum 1 1, storeSum 2 3]).lookup 3 sums.key
          (Fingerprint.ofTokens threeOnes.toList)).1.entriesFor sums.key.name) ∧
      ∀ name ≠ sums.key.name,
        (((empty {}).performAll [storeSum 1 1, storeSum 2 3]).lookup 3 sums.key
          (Fingerprint.ofTokens threeOnes.toList)).1.entriesFor name =
            (((empty {}).performAll [storeSum 1 1, storeSum 2 3]).entriesFor name).filter
              (((empty {}).performAll [storeSum 1 1, storeSum 2 3]).isFresh 3) := by
  have intact : ∀ entry ∈ ((empty {}).performAll [storeSum 1 1, storeSum 2 3]).current 3 sums.key,
      entry.defect? = none := by decide +kernel
  exact ⟨intact, lookup_exact {} _ 3 sums.key _ intact⟩

end SessionCache

end Readings
