import Mathlib.Data.Prod.Lex
import Readings.Proofs.CacheAccounts
import Readings.Proofs.SeparateGrammars

/-! Which entries are removed when there is no room for all. They go one by one, each the least valuable
of those that are left; so what goes are the least valuable of all, wherever they stand, and the others
stay in their order. Entries have different numbers, so no two are worth the same. -/

namespace Readings

namespace CacheEntry

/-- Its hits, the time it was made and its number, compared in this order. -/
def worth (entry : CacheEntry) : Nat ×ₗ Nat ×ₗ Nat :=
  toLex (entry.hitCount, toLex (entry.createdAt, entry.sequence))

/-- Whether an entry is one of the least valuable, some in number: fewer are worth less. -/
def isAmongLeast (count : Nat) (entries : List CacheEntry) (entry : CacheEntry) : Bool :=
  decide (entries.countP (fun other => decide (other.worth < entry.worth)) < count)

variable {entry other : CacheEntry}

theorem goesBefore_iff_worth_lt : entry.goesBefore other = true ↔ entry.worth < other.worth := by
  simp only [goesBefore, worth, Ordering.isLT_iff_eq_lt, Ordering.then_eq_lt, Nat.compare_eq_lt,
    Nat.compare_eq_eq, Prod.Lex.toLex_lt_toLex]

theorem sequence_eq_of_worth_eq (same : entry.worth = other.worth) :
    entry.sequence = other.sequence := by
  simp only [worth, toLex_inj, Prod.mk.injEq] at same
  exact same.2.2

theorem filter_isAmongLeast_succ {victim : CacheEntry} {before later : List CacheEntry} (count : Nat)
    (least : ∀ other ∈ before ++ later, victim.worth < other.worth) :
    (before ++ victim :: later).filter (!·.isAmongLeast (count + 1) (before ++ victim :: later)) =
      (before ++ later).filter (!·.isAmongLeast count (before ++ later)) := by
  have counted : ∀ entry : CacheEntry, victim.worth < entry.worth →
      (before ++ victim :: later).countP (fun other => decide (other.worth < entry.worth)) =
        (before ++ later).countP (fun other => decide (other.worth < entry.worth)) + 1 := by
    intro entry less
    simp only [List.countP_append, List.countP_cons, less, decide_true, if_true, Nat.add_assoc]
  have gone : victim.isAmongLeast (count + 1) (before ++ victim :: later) = true := by
    have none : (before ++ victim :: later).countP
        (fun other => decide (other.worth < victim.worth)) = 0 := by
      refine List.countP_eq_zero.mpr fun other member => ?_
      rcases List.mem_cons.mp (List.perm_middle.subset member) with rfl | rest
      · simp
      · simpa using le_of_lt (least other rest)
    rw [isAmongLeast, none]
    exact decide_eq_true (Nat.succ_pos count)
  rw [List.filter_append, List.filter_cons_of_neg (by simp [gone]), ← List.filter_append]
  refine List.filter_congr fun entry member => ?_
  rw [isAmongLeast, isAmongLeast, counted entry (least entry member)]
  simp only [Nat.add_lt_add_iff_right]

end CacheEntry

def CacheRequest.stores (request : CacheRequest) : Bool :=
  match request.operation with
  | .insert _ _ _ result => !result.chart.isLimitExceeded
  | _ => false

namespace SessionCache

variable {config : CacheConfig} {cache : SessionCache} {entry victim : CacheEntry} {name : String}
  {entries : List CacheEntry}

theorem victim?_least (found : victim? entries = some victim) :
    victim ∈ entries ∧ ∀ other ∈ entries, victim.worth ≤ other.worth := by
  induction entries generalizing victim with
  | nil => cases found
  | cons first entries ih =>
    rw [victim?] at found
    split at found
    next none =>
      cases found
      rcases victim?_cases entries with rfl | ⟨last, -, some⟩
      · exact ⟨List.mem_cons_self, by simp⟩
      · cases none.symm.trans some
    next least some =>
      obtain ⟨inside, below⟩ := ih some
      split at found
      next before =>
        cases found
        have less := CacheEntry.goesBefore_iff_worth_lt.mp before
        exact ⟨List.mem_cons_of_mem _ inside, List.forall_mem_cons.mpr ⟨le_of_lt less, below⟩⟩
      next behind =>
        cases found
        have least := not_lt.mp fun less => behind (CacheEntry.goesBefore_iff_worth_lt.mpr less)
        refine ⟨List.mem_cons_self, List.forall_mem_cons.mpr ⟨le_refl _, ?_⟩⟩
        exact fun other member => le_trans least (below other member)

/-- From the entries of one grammar the victim goes, from between others with other numbers. -/
theorem evict_cases (named : ∀ entry ∈ entries, entry.grammar.name = name)
    (distinct : (entries.map (·.sequence)).Nodup) :
    entries = [] ∨ ∃ before victim later, entries = before ++ victim :: later ∧
      victim? entries = some victim ∧ (∀ other ∈ before ++ later, other.sequence ≠ victim.sequence) ∧
      ∀ count, evict name (count + 1) entries = evict name count (before ++ later) := by
  have all : entries.filter (·.grammar.name == name) = entries :=
    List.filter_eq_self.mpr fun entry member => beq_iff_eq.mpr (named entry member)
  rcases victim?_cases entries with rfl | ⟨victim, inside, found⟩
  · exact Or.inl rfl
  · obtain ⟨before, later, split, left, differ⟩ := exists_split_of_mem distinct inside
    refine Or.inr ⟨before, victim, later, split, found, differ, fun count => ?_⟩
    rw [evict, all, found]
    exact congrArg (evict name count) left

theorem evict_eq_filter (count : Nat) (named : ∀ entry ∈ entries, entry.grammar.name = name)
    (distinct : (entries.map (·.sequence)).Nodup) :
    evict name count entries = entries.filter (!·.isAmongLeast count entries) := by
  induction count generalizing entries with
  | zero => simp [evict, CacheEntry.isAmongLeast]
  | succ count ih =>
    rcases evict_cases named distinct with rfl | ⟨before, victim, later, rfl, found, differ, taken⟩
    · rfl
    · have fewer : (before ++ later).Sublist (before ++ victim :: later) :=
        (List.sublist_cons_self _ _).append_left _
      have less : ∀ other ∈ before ++ later, victim.worth < other.worth := fun other member =>
        lt_of_le_of_ne ((victim?_least found).2 other (fewer.subset member)) fun same =>
          differ other member (CacheEntry.sequence_eq_of_worth_eq same).symm
      rw [taken, CacheEntry.filter_isAmongLeast_succ count less]
      exact ih (fun entry member => named entry (fewer.subset member)) (distinct.sublist (fewer.map _))

theorem nextSequence_perform (cache : SessionCache) (request : CacheRequest) :
    (cache.perform request).nextSequence =
      cache.nextSequence + if request.stores then 1 else 0 := by
  obtain ⟨now, operation⟩ := request
  cases operation with
  | insert key tokens fingerprints result =>
    cases exceeded : result.chart.isLimitExceeded <;>
      simp [perform, insert, store, CacheRequest.stores, exceeded]
  | lookup key fingerprints => exact (IsReduced.lookup cache now key fingerprints).sequence
  | purgeExpired => rfl
  | invalidateOtherVersions key => rfl
  | clear => rfl
  | resetStats => rfl

theorem nextSequence_performAll (cache : SessionCache) (requests : List CacheRequest) :
    (cache.performAll requests).nextSequence = cache.nextSequence + requests.countP (·.stores) := by
  induction requests generalizing cache with
  | nil => rfl
  | cons request requests ih =>
    rw [performAll, List.foldl_cons, ← performAll, ih, nextSequence_perform, List.countP_cons]
    omega

/-- Storing an entry leaves all but the least valuable of the entries that are listed with it. -/
theorem IsRegular.entriesFor_store (regular : cache.IsRegular config)
    (last : entry.sequence = cache.nextSequence) {listed : List CacheEntry}
    (beside : listed =
      (cache.entriesFor entry.grammar.name).filter (·.differsFrom entry.fingerprints) ++ [entry]) :
    let excess := listed.length - max config.maxEntries 1
    (cache.store entry).entriesFor entry.grammar.name =
        listed.filter (!·.isAmongLeast excess listed) ∧
      ((cache.store entry).entriesFor entry.grammar.name).length + excess = listed.length ∧
      (cache.store entry).stats.evictions = cache.stats.evictions + excess := by
  intro excess
  have named : ∀ known ∈ listed, known.grammar.name = entry.grammar.name :=
    beside ▸ named_beside cache entry
  have distinct : (listed.map (·.sequence)).Nodup := beside ▸ regular.distinct_beside last
  have counted : listed.countP (·.grammar.name == entry.grammar.name) = listed.length :=
    List.countP_eq_length.mpr fun known member => beq_iff_eq.mpr (named known member)
  obtain ⟨kept, evicted⟩ := entriesFor_store_self cache entry
  rw [← beside, regular.configured] at kept evicted
  refine ⟨kept.trans (evict_eq_filter excess named distinct), ?_, evicted⟩
  rw [kept]
  exact length_evict _ _ distinct (counted.symm ▸ Nat.sub_le _ _)

/-- After any operations, an entry that is stored takes the place of one for the same tokens and stands
behind the others of its grammar, with a number above all before it. Of these as many are removed as there
is no room for, the least valuable ones, and the rest stay in their order. -/
theorem eviction_exact (config : CacheConfig) (requests : List CacheRequest) (now : Duration)
    (key : GrammarKey) (tokens : List Token) (fingerprints : List Fingerprint) {result : ParseResult}
    (within : result.chart.isLimitExceeded = false) :
    let cache := (empty config).performAll requests
    let entry : CacheEntry :=
      { grammar := key, tokens, fingerprints, result, createdAt := now, hitCount := 0,
        sequence := requests.countP (·.stores) }
    let listed := (cache.entriesFor key.name).filter (·.differsFrom fingerprints) ++ [entry]
    let excess := listed.length - max config.maxEntries 1
    (∀ known ∈ cache.entries, known.sequence < entry.sequence) ∧
      ∃ next, cache.insert now key tokens fingerprints result = (next, true) ∧
        next.entriesFor key.name = listed.filter (!·.isAmongLeast excess listed) ∧
        (next.entriesFor key.name).length + excess = listed.length ∧
        next.stats.evictions = cache.stats.evictions + excess := by
  intro cache entry listed excess
  have regular : cache.IsRegular config := (IsRegular.empty config).performAll requests
  have last : entry.sequence = cache.nextSequence := by
    rw [nextSequence_performAll]
    exact (Nat.zero_add _).symm
  refine ⟨fun known member => last ▸ regular.numbered _ (List.mem_map_of_mem member),
    cache.store entry, ?_, regular.entriesFor_store last rfl⟩
  simp only [insert, within, Bool.false_eq_true, if_false, ← last]
  rfl

/-- Of two sums that were not asked for again and seem to be stored at one time, since the clock was set
back, the earlier goes, although it stands between the others. -/
theorem storedSums_evicted :
    let first := Fingerprint.ofTokens (threeOnes.toList.take 1)
    let cache := (empty { maxEntries := 2 }).performAll
      [storeSum 4 1, ⟨4, .lookup sums.key first⟩, storeSum 3 3]
    let result : ParseResult := ⟨Chart.build sums {} threeOnes, default⟩
    let next := (cache.insert 3 sums.key threeOnes.toList (Fingerprint.ofTokens threeOnes.toList)
      result).1
    result.chart.isLimitExceeded = false ∧
      (cache.entriesFor "sums").map (fun entry => (entry.hitCount, entry.createdAt, entry.sequence)) =
        [(1, 4, 0), (0, 3, 1)] ∧
      (next.entriesFor "sums").map (fun entry => (entry.hitCount, entry.createdAt, entry.sequence)) =
        [(1, 4, 0), (0, 3, 2)] ∧
      next.stats.evictions = cache.stats.evictions + 1 := by
  intro first cache result next
  have within : result.chart.isLimitExceeded = false := by decide +kernel
  obtain ⟨-, last, stored, -, -, counted⟩ := eviction_exact { maxEntries := 2 }
    [storeSum 4 1, ⟨4, .lookup sums.key first⟩, storeSum 3 3] 3 sums.key
    threeOnes.toList (Fingerprint.ofTokens threeOnes.toList) within
  have same : next = last := congrArg Prod.fst stored
  refine ⟨within, by decide +kernel, by decide +kernel, ?_⟩
  rw [same, counted]
  exact congrArg (cache.stats.evictions + ·) (by decide +kernel)

end SessionCache

end Readings
