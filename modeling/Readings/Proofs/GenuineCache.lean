import Readings.Cache.Parser
import Readings.Proofs.SeenTokens

/-! A cache in which every entry holds the parse of its own tokens. No operation of a parser puts anything
else into it, so what it finds under some fingerprints is what parsing would give. -/

namespace Readings

variable {grammar : Grammar} {config : ChartConfig}

/-- An entry with the parse of its tokens under a grammar. -/
structure CacheEntry.IsGenuine (grammar : Grammar) (config : ChartConfig) (entry : CacheEntry) :
    Prop where
  key : entry.grammar = grammar.key
  fingerprints : entry.fingerprints = Fingerprint.ofTokens entry.tokens
  parsed : grammar.parse config entry.tokens.toArray = .ok entry.result
  within : entry.result.chart.isLimitExceeded = false

def IncrementalParser.IsGenuine (grammar : Grammar) (parser : IncrementalParser) : Prop :=
  ∀ entry ∈ parser.cache.entries, entry.IsGenuine grammar parser.config

theorem Grammar.chart_of_parse {tokens : Array Token} {result : ParseResult}
    (parsed : grammar.parse config tokens = .ok result) :
    result.chart = Chart.build grammar config tokens := by
  simp only [Grammar.parse] at parsed
  cases extracted : (Chart.build grammar config tokens).extract grammar config.maxDerivations with
  | error fault =>
    rw [extracted] at parsed
    cases parsed
  | ok selection =>
    rw [extracted] at parsed
    cases parsed
    rfl

namespace CacheEntry

variable {entry : CacheEntry}

theorem IsGenuine.recordHit (genuine : entry.IsGenuine grammar config) :
    entry.recordHit.IsGenuine grammar config :=
  ⟨genuine.key, genuine.fingerprints, genuine.parsed, genuine.within⟩

theorem IsGenuine.defect?_eq (genuine : entry.IsGenuine grammar config) : entry.defect? = none := by
  have chart := Grammar.chart_of_parse genuine.parsed
  have tokens : entry.tokens.length = entry.fingerprints.length := by
    rw [genuine.fingerprints, Fingerprint.ofTokens, List.length_map]
  have count : entry.result.chart.tokenCount = entry.tokens.length := by rw [chart]; rfl
  have key : entry.result.chart.grammar = entry.grammar := by rw [chart, genuine.key]; rfl
  simp [defect?, ← tokens, count, key, genuine.within]

end CacheEntry

namespace SessionCache

variable {cache : SessionCache}

theorem refresh_sublist (now : Duration) (key : GrammarKey) :
    (cache.refresh now key).entries.Sublist cache.entries :=
  List.Sublist.trans List.filter_sublist List.filter_sublist

theorem firstError?_eq {entries : List CacheEntry}
    (intact : ∀ entry ∈ entries, entry.defect? = none) : firstError? entries = none := by
  induction entries with
  | nil => rfl
  | cons entry entries ih =>
    simp only [List.forall_mem_cons] at intact
    rw [firstError?, intact.1]
    exact ih intact.2

/-- Counting a hit changes no more than a count. -/
theorem mem_recordHit {name : String} {fingerprints : List Fingerprint} {entries : List CacheEntry}
    {entry : CacheEntry} (member : entry ∈ recordHit name fingerprints entries) :
    ∃ old ∈ entries, entry = old ∨ entry = old.recordHit := by
  induction entries with
  | nil => exact absurd member List.not_mem_nil
  | cons first entries ih =>
    rw [recordHit] at member
    split at member
    · rcases List.mem_cons.mp member with rfl | later
      · exact ⟨first, List.mem_cons_self, Or.inr rfl⟩
      · exact ⟨entry, List.mem_cons_of_mem _ later, Or.inl rfl⟩
    · rcases List.mem_cons.mp member with rfl | later
      · exact ⟨entry, List.mem_cons_self, Or.inl rfl⟩
      · obtain ⟨old, inside, same⟩ := ih later
        exact ⟨old, List.mem_cons_of_mem _ inside, same⟩

theorem evict_sublist (name : String) (count : Nat) (entries : List CacheEntry) :
    (evict name count entries).Sublist entries := by
  induction count generalizing entries with
  | zero => exact List.Sublist.refl _
  | succ count ih =>
    rw [evict]
    split
    · exact List.Sublist.refl _
    · exact List.Sublist.trans (ih _) List.filter_sublist

theorem store_subset (entry : CacheEntry) : (cache.store entry).entries ⊆ entry :: cache.entries := by
  intro other member
  simp only [store] at member
  rcases List.mem_append.mp ((evict_sublist _ _ _).subset member) with old | new
  · exact List.mem_cons_of_mem _ (List.filter_sublist.subset old)
  · exact List.mem_singleton.mp new ▸ List.mem_cons_self

/-- What a cache with genuine entries answers to a lookup, and what it is afterwards. -/
structure Answers (grammar : Grammar) (config : ChartConfig) (tokens : List Token)
    (outcome : SessionCache × Except CacheError CacheLookup) (answer : CacheLookup) : Prop where
  answered : outcome.2 = .ok answer
  full : ∀ result, answer = .full result → grammar.parse config tokens.toArray = .ok result
  genuine : ∀ entry ∈ outcome.1.entries, entry.IsGenuine grammar config

private theorem lookupFresh_answers (genuine : ∀ entry ∈ cache.entries, entry.IsGenuine grammar config)
    (tokens : List Token) :
    ∃ answer, Answers grammar config tokens
      (cache.lookupFresh grammar.key (Fingerprint.ofTokens tokens)) answer := by
  have candidates : ∀ entry ∈ cache.entriesFor grammar.key.name, entry.IsGenuine grammar config :=
    fun entry member => genuine entry (List.filter_sublist.subset member)
  simp only [lookupFresh, firstError?_eq fun entry member => (candidates entry member).defect?_eq]
  split
  next entry found =>
    have known := candidates entry (List.mem_of_find?_eq_some found)
    have same : entry.fingerprints = Fingerprint.ofTokens tokens := by
      simpa using List.find?_some found
    refine ⟨.full entry.result, rfl, ?_, ?_⟩
    · intro result full
      cases full
      rw [← Grammar.parse_congr (known.fingerprints.symm.trans same) grammar config]
      exact known.parsed
    · intro other member
      obtain ⟨old, inside, rfl | rfl⟩ := mem_recordHit member
      · exact genuine _ inside
      · exact (genuine old inside).recordHit
  next =>
    split
    · exact ⟨.miss, rfl, nofun, genuine⟩
    · split
      · exact ⟨.shared _ _, rfl, nofun, genuine⟩
      · exact ⟨.miss, rfl, nofun, genuine⟩

theorem lookup_answers (genuine : ∀ entry ∈ cache.entries, entry.IsGenuine grammar config)
    (now : Duration) (tokens : List Token) :
    ∃ answer, Answers grammar config tokens
      (cache.lookup now grammar.key (Fingerprint.ofTokens tokens)) answer :=
  lookupFresh_answers
    (fun entry member => genuine entry ((refresh_sublist now grammar.key).subset member)) tokens

theorem insert_genuine (genuine : ∀ entry ∈ cache.entries, entry.IsGenuine grammar config)
    (now : Duration) {tokens : List Token} {result : ParseResult}
    (parsed : grammar.parse config tokens.toArray = .ok result) :
    ∀ entry ∈ (cache.insert now grammar.key tokens (Fingerprint.ofTokens tokens) result).1.entries,
      entry.IsGenuine grammar config := by
  intro entry member
  simp only [insert] at member
  split at member
  next => exact genuine entry member
  next within =>
    rcases List.mem_cons.mp (store_subset _ member) with rfl | old
    · exact ⟨rfl, rfl, parsed, by simpa using within⟩
    · exact genuine entry old

end SessionCache

namespace IncrementalParser

variable {parser : IncrementalParser}

theorem start_genuine (grammar : Grammar) (config : ChartConfig) (cache : CacheConfig) :
    (IncrementalParser.start config cache).IsGenuine grammar :=
  fun _ member => absurd member List.not_mem_nil

/-- A parser with genuine entries parses as if it had no cache, and keeps them genuine. -/
theorem IsGenuine.parse (genuine : parser.IsGenuine grammar) (looked stored : Duration)
    {tokens : List Token} {result : ParseResult}
    (parsed : grammar.parse parser.config tokens.toArray = .ok result) :
    ∃ next reuse, parser.parse looked stored grammar tokens = .ok (next, .ok ⟨result, reuse⟩) ∧
      next.IsGenuine grammar ∧ next.config = parser.config := by
  by_cases incremental : parser.cache.config.incremental = true
  · obtain ⟨answer, answers⟩ := SessionCache.lookup_answers genuine looked tokens
    generalize answered : parser.cache.lookup looked grammar.key (Fingerprint.ofTokens tokens) = outcome
      at answers
    obtain ⟨cache, found⟩ := outcome
    obtain rfl : found = .ok answer := answers.answered
    simp only [IncrementalParser.parse, incremental, Bool.not_true, Bool.false_eq_true, ite_false,
      answered]
    cases answer with
    | full known =>
      obtain rfl : result = known :=
        Except.ok.inj (parsed.symm.trans (answers.full known rfl))
      exact ⟨_, _, rfl, answers.genuine, rfl⟩
    | shared count diff =>
      rw [parsed]
      exact ⟨_, _, rfl, SessionCache.insert_genuine answers.genuine stored parsed, rfl⟩
    | miss =>
      rw [parsed]
      exact ⟨_, _, rfl, SessionCache.insert_genuine answers.genuine stored parsed, rfl⟩
  · refine ⟨parser, .fresh .bypassed tokens.length, ?_, genuine, rfl⟩
    simp only [IncrementalParser.parse, incremental, parsed]
    rfl

end IncrementalParser

end Readings
