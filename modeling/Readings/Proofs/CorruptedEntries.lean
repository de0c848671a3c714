import Readings.Proofs.CacheLookups

/-! What a lookup makes of entries whose parts do not belong together. Whoever stores an entry may give any
tokens, fingerprints and parse, so such entries do occur; but none with a parse that hit a limit, since
these are not stored. A lookup checks all entries that it looks at before it counts anything, and reports
the first defect of the first of them that has one. -/

namespace Readings

/-- What is wrong with an entry: its tokens do not have a fingerprint each, or its chart is one of a
different number of tokens or of another grammar. -/
inductive CacheEntry.HasDefect (entry : CacheEntry) : CacheDefect → Prop where
  | fingerprintCount (differ : entry.tokens.length ≠ entry.fingerprints.length) :
      HasDefect entry (.fingerprintCount entry.tokens.length entry.fingerprints.length)
  | chartSize (differ : entry.result.chart.tokenCount ≠ entry.tokens.length) :
      HasDefect entry (.chartSize entry.result.chart.tokenCount entry.tokens.length)
  | chartGrammar (differ : entry.result.chart.grammar ≠ entry.grammar) :
      HasDefect entry (.chartGrammar entry.result.chart.grammar)

def CacheEntry.IsSound (entry : CacheEntry) : Prop := ∀ defect, ¬ entry.HasDefect defect

theorem CacheEntry.defect?_cases {entry : CacheEntry}
    (within : entry.result.chart.isLimitExceeded = false) :
    entry.defect? = none ∧ entry.IsSound ∨
      ∃ defect, entry.defect? = some defect ∧ entry.HasDefect defect := by
  by_cases prints : entry.tokens.length = entry.fingerprints.length
  · by_cases size : entry.result.chart.tokenCount = entry.tokens.length
    · by_cases grammar : entry.result.chart.grammar = entry.grammar
      · refine Or.inl ⟨by simp [defect?, ← prints, size, grammar, within], ?_⟩
        intro defect has
        cases has with
        | fingerprintCount differ => exact differ prints
        | chartSize differ => exact differ size
        | chartGrammar differ => exact differ grammar
      · exact Or.inr ⟨_, by simp [defect?, ← prints, size, grammar], .chartGrammar grammar⟩
    · exact Or.inr ⟨_, by simp [defect?, ← prints, size], .chartSize size⟩
  · exact Or.inr ⟨_, by simp [defect?, prints], .fingerprintCount prints⟩

namespace SessionCache

variable {config : CacheConfig} {cache : SessionCache}

/-- The first of some entries that is not sound is told with a defect that it has. -/
inductive Reports : List CacheEntry → CacheError → Prop where
  | here {entry : CacheEntry} {entries : List CacheEntry} {defect : CacheDefect}
      (has : entry.HasDefect defect) : Reports (entry :: entries) ⟨entry.grammar, defect⟩
  | behind {entry : CacheEntry} {entries : List CacheEntry} {error : CacheError}
      (sound : entry.IsSound) (rest : Reports entries error) : Reports (entry :: entries) error

theorem Reports.exists_defect {entries : List CacheEntry} {error : CacheError}
    (reports : Reports entries error) : ∃ entry ∈ entries, ∃ defect, entry.HasDefect defect := by
  induction reports with
  | here has => exact ⟨_, List.mem_cons_self, _, has⟩
  | behind sound rest ih =>
    obtain ⟨entry, member, defective⟩ := ih
    exact ⟨entry, List.mem_cons_of_mem _ member, defective⟩

theorem firstError?_cases {entries : List CacheEntry}
    (within : ∀ entry ∈ entries, entry.result.chart.isLimitExceeded = false) :
    firstError? entries = none ∧ (∀ entry ∈ entries, entry.IsSound) ∨
      ∃ error, firstError? entries = some error ∧ Reports entries error := by
  induction entries with
  | nil => exact Or.inl ⟨rfl, by simp⟩
  | cons entry entries ih =>
    obtain ⟨first, others⟩ := List.forall_mem_cons.mp within
    rcases CacheEntry.defect?_cases first with ⟨none, sound⟩ | ⟨defect, found, has⟩
    · rw [firstError?, none]
      rcases ih others with ⟨nothing, all⟩ | ⟨error, found, rest⟩
      · exact Or.inl ⟨nothing, List.forall_mem_cons.mpr ⟨sound, all⟩⟩
      · exact Or.inr ⟨error, found, .behind sound rest⟩
    · rw [firstError?, found]
      exact Or.inr ⟨_, rfl, .here has⟩

/-- A lookup has an answer if all entries are sound; else it reports the first that is not, and leaves
everything as it is. -/
theorem IsRegular.lookupFresh_cases (regular : cache.IsRegular config) (key : GrammarKey)
    (fingerprints : List Fingerprint) :
    (∃ answer, (cache.lookupFresh key fingerprints).2 = .ok answer) ∧
        (∀ entry ∈ cache.entriesFor key.name, entry.IsSound) ∨
      ∃ error, cache.lookupFresh key fingerprints = (cache, .error error) ∧
        Reports (cache.entriesFor key.name) error := by
  have within : ∀ entry ∈ cache.entriesFor key.name, entry.result.chart.isLimitExceeded = false :=
    fun entry member => regular.within _ (List.mem_map_of_mem (mem_entriesFor.mp member).1)
  rcases firstError?_cases within with ⟨none, sound⟩ | ⟨error, found, reports⟩
  · refine Or.inl ⟨?_, sound⟩
    have looked := lookupFresh_looked none fingerprints
    generalize cache.lookupFresh key fingerprints = outcome at looked
    cases looked with
    | found has => exact ⟨_, rfl⟩
    | absent lacks partly counted => exact ⟨_, rfl⟩
  · exact Or.inr ⟨error, by simp only [lookupFresh, found], reports⟩

/-- After any operations, with any arguments, a lookup reports an error exactly if one of the entries that
it looks at has a defect, be it the one it looks for or not. It then names the first such entry, and has
done no more than to drop the entries of other versions and those that have reached their age: all others
are as they were, with their hits, and nothing is counted. -/
theorem corruption_exact (config : CacheConfig) (requests : List CacheRequest) (now : Duration)
    (key : GrammarKey) (fingerprints : List Fingerprint) :
    let cache := (empty config).performAll requests
    let outcome := cache.lookup now key fingerprints
    ((∃ error, outcome.2 = .error error) ↔
        ∃ entry ∈ cache.current now key, ∃ defect, entry.HasDefect defect) ∧
      ∀ error, outcome.2 = .error error →
        Reports (cache.current now key) error ∧
        outcome.1.entriesFor key.name = cache.current now key ∧
        (∀ name ≠ key.name,
          outcome.1.entriesFor name = (cache.entriesFor name).filter (cache.isFresh now)) ∧
        outcome.1.stats.hits = cache.stats.hits ∧
        outcome.1.stats.partialHits = cache.stats.partialHits ∧
        outcome.1.stats.misses = cache.stats.misses := by
  intro cache outcome
  have regular : (cache.refresh now key).IsRegular config :=
    ((IsRegular.empty config).performAll requests).reduced (IsReduced.refresh _ now key)
  have looked : outcome = (cache.refresh now key).lookupFresh key fingerprints := rfl
  have current := entriesFor_refresh cache now key
  rw [← current]
  rcases regular.lookupFresh_cases key fingerprints with ⟨⟨answer, answered⟩, sound⟩ |
    ⟨error, failed, reports⟩
  · have none : ∀ error, outcome.2 ≠ .error error := by
      intro error same
      rw [looked, answered] at same
      cases same
    refine ⟨iff_of_false (fun ⟨error, same⟩ => none error same) ?_, ?_⟩
    · rintro ⟨entry, member, defect, has⟩
      exact sound entry member defect has
    · exact fun error same => absurd same (none error)
  · rw [looked, failed]
    refine ⟨iff_of_true ⟨error, rfl⟩ reports.exists_defect, ?_⟩
    intro reported same
    obtain rfl : error = reported := Except.error.inj same
    refine ⟨reports, rfl, fun name differ => ?_, rfl, rfl, rfl⟩
    rw [refresh, entriesFor_invalidateOtherVersions_of_ne _ differ, entriesFor_purgeExpired]

/-- One entry without fingerprints is enough: the sum that is stored behind it is not found, although it is
there, and its hit is not counted. -/
theorem storedSums_corrupted :
    let single := threeOnes.toList.take 1
    let cache := (empty {}).performAll
      [⟨1, .insert sums.key single [] ⟨Chart.build sums {} single.toArray, default⟩⟩, storeSum 2 3]
    let wanted := Fingerprint.ofTokens (threeOnes.toList.take 3)
    let outcome := cache.lookup 3 sums.key wanted
    outcome.2 = .error ⟨sums.key, .fingerprintCount 1 0⟩ ∧
      (cache.current 3 sums.key).map (fun entry => (entry.hitCount, entry.fingerprints == wanted)) =
        [(0, false), (0, true)] ∧
      outcome.1.entriesFor "sums" = cache.current 3 sums.key ∧
      outcome.1.stats.hits = cache.stats.hits := by
  intro single cache wanted outcome
  have told : outcome.2.map (fun _ => ()) = .error ⟨sums.key, .fingerprintCount 1 0⟩ := by
    decide +kernel
  have reported : outcome.2 = .error ⟨sums.key, .fingerprintCount 1 0⟩ := by
    cases answered : outcome.2 with
    | error error =>
      rw [answered] at told
      exact congrArg Except.error (Except.error.inj told)
    | ok answer =>
      rw [answered] at told
      cases told
  obtain ⟨-, same, -, hits, -⟩ := (corruption_exact {}
    [⟨1, .insert sums.key single [] ⟨Chart.build sums {} single.toArray, default⟩⟩, storeSum 2 3] 3
    sums.key wanted).2 _ reported
  exact ⟨reported, by decide +kernel, same, hits⟩

end SessionCache

end Readings
