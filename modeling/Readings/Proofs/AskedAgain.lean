import Readings.Proofs.AnalysisAnswers
import Readings.Proofs.CacheRoom

/-! Asking twice in a row. Whatever was asked before and however the clock moved, the second of two equal
requests is a full hit exactly if the cache has room for the parse. A full cache has none when all its
entries were hit: what is stored then is removed at once. -/

namespace Readings

/-- A request to parse, with the times that the clock shows when the parse is looked up and stored. -/
structure ParseRequest where
  looked : Duration
  stored : Duration
  grammar : Grammar
  tokens : List Token

namespace IncrementalParser

/-- The parser after a request; one without an answer leaves it as it was. -/
def ask (parser : IncrementalParser) (request : ParseRequest) : IncrementalParser :=
  match parser.parse request.looked request.stored request.grammar request.tokens with
  | .ok (next, _) => next
  | .error _ => parser

def run (parser : IncrementalParser) (requests : List ParseRequest) : IncrementalParser :=
  requests.foldl ask parser

/-- What the second of two equal requests says about reuse, if the clock stands still all the time. -/
def askTwice (parser : IncrementalParser) (now : Duration) (grammar : Grammar) (tokens : List Token) :
    Except Fault (Except CacheError ReuseInfo) := do
  let (once, _) ← parser.parse now now grammar tokens
  let (_, answer) ← once.parse now now grammar tokens
  return answer.map (·.reuse)

/-- A request finds a parse in the refreshed cache, or the tokens are parsed and the parse is stored. -/
inductive Responds (parser : IncrementalParser) (looked stored : Duration) (grammar : Grammar)
    (tokens : List Token) :
    Except Fault (IncrementalParser × Except CacheError IncrementalParse) → Prop where
  | found {result : ParseResult}
      (has : (parser.cache.refresh looked grammar.key).Has grammar.key.name
        (Fingerprint.ofTokens tokens)) :
      Responds parser looked stored grammar tokens (.ok
        ({ parser with cache :=
            { parser.cache.refresh looked grammar.key with
              entries := SessionCache.recordHit grammar.key.name (Fingerprint.ofTokens tokens)
                (parser.cache.refresh looked grammar.key).entries
              stats := { (parser.cache.refresh looked grammar.key).stats with
                hits := (parser.cache.refresh looked grammar.key).stats.hits + 1 } } },
          .ok ⟨result, ⟨.fullHit, tokens.length, tokens.length, none⟩⟩))
  | stored {result : ParseResult} {reuse : ReuseInfo} {stats : CacheStats}
      (lacks : ¬ (parser.cache.refresh looked grammar.key).Has grammar.key.name
        (Fingerprint.ofTokens tokens))
      (parsed : grammar.parse parser.config tokens.toArray = .ok result)
      (partly : reuse.outcome ≠ .fullHit)
      (counted : SessionCache.CountsMiss (parser.cache.refresh looked grammar.key).stats stats) :
      Responds parser looked stored grammar tokens (.ok
        ({ parser with cache :=
            ({ parser.cache.refresh looked grammar.key with stats }.insert stored grammar.key tokens
              (Fingerprint.ofTokens tokens) result).1 },
          .ok ⟨result, reuse⟩))
  | failed {fault : Fault} (failure : grammar.parse parser.config tokens.toArray = .error fault) :
      Responds parser looked stored grammar tokens (.error fault)

structure IsOrderly (settings : ChartConfig) (config : CacheConfig) (parser : IncrementalParser) :
    Prop where
  settings : parser.config = settings
  cache : parser.cache.IsOrderly config

variable {settings : ChartConfig} {config : CacheConfig} {parser : IncrementalParser}

theorem start_orderly (settings : ChartConfig) (config : CacheConfig) :
    (start settings config).IsOrderly settings config :=
  ⟨rfl, rfl, fun _ member => absurd member List.not_mem_nil,
    fun _ member => absurd member List.not_mem_nil, fun _ => Nat.zero_le _⟩

namespace IsOrderly

theorem responds (orderly : parser.IsOrderly settings config) (incremental : config.incremental = true)
    (looked stored : Duration) (grammar : Grammar) (tokens : List Token) :
    Responds parser looked stored grammar tokens (parser.parse looked stored grammar tokens) := by
  have found := orderly.cache.looked looked grammar.key (Fingerprint.ofTokens tokens)
  simp only [parse, orderly.cache.configured, incremental, Bool.not_true, Bool.false_eq_true, ite_false]
  generalize parser.cache.lookup looked grammar.key (Fingerprint.ofTokens tokens) = outcome at found
  cases found with
  | found has => exact .found has
  | @absent answer stats lacks partly counted =>
    cases answer
    case full result => exact absurd rfl (partly result)
    all_goals
      cases parsed : grammar.parse parser.config tokens.toArray with
      | error fault => exact .failed parsed
      | ok result => exact .stored lacks parsed (by simp [reuseOf, ReuseInfo.fresh]) counted

theorem next {looked stored : Duration} {grammar : Grammar} {tokens : List Token} {after : IncrementalParser}
    {answer : Except CacheError IncrementalParse} (orderly : parser.IsOrderly settings config)
    (response : Responds parser looked stored grammar tokens (.ok (after, answer))) :
    after.IsOrderly settings config := by
  have refreshed := orderly.cache.refresh looked grammar.key
  cases response with
  | found has => exact ⟨orderly.settings, refreshed.recordHit _ _ _⟩
  | stored lacks parsed partly counted =>
    exact ⟨orderly.settings, (refreshed.withStats _).insert stored parsed⟩

theorem ask (orderly : parser.IsOrderly settings config) (incremental : config.incremental = true)
    (request : ParseRequest) : (parser.ask request).IsOrderly settings config := by
  have response := orderly.responds incremental request.looked request.stored request.grammar
    request.tokens
  rw [IncrementalParser.ask]
  generalize parser.parse request.looked request.stored request.grammar request.tokens = outcome at response
  cases outcome with
  | error fault => exact orderly
  | ok answered => exact orderly.next response

theorem run (orderly : parser.IsOrderly settings config) (incremental : config.incremental = true)
    (requests : List ParseRequest) : (parser.run requests).IsOrderly settings config := by
  induction requests generalizing parser with
  | nil => exact orderly
  | cons request requests ih => exact ih (orderly.ask incremental request)

end IsOrderly

namespace Responds

variable {now looked stored : Duration} {grammar : Grammar} {tokens : List Token}

/-- After a request the cache has the parse exactly if there was room for it. -/
theorem has_iff {next : IncrementalParser} {answer : Except CacheError IncrementalParse}
    (orderly : parser.IsOrderly settings config) (lasting : 0 < config.timeToLive)
    (within : (Chart.build grammar settings tokens.toArray).isLimitExceeded = false)
    (response : Responds parser now now grammar tokens (.ok (next, answer))) :
    (next.cache.refresh now grammar.key).Has grammar.key.name (Fingerprint.ofTokens tokens) ↔
      (parser.cache.refresh now grammar.key).HasRoom now grammar.key.name
        (Fingerprint.ofTokens tokens) := by
  cases response with
  | found has => exact iff_of_true (has.recordHit _) (Or.inl has)
  | @stored result reuse stats lacks parsed partly counted =>
    have refreshed := (orderly.cache.refresh now grammar.key).withStats stats
    rw [← orderly.settings, ← Grammar.chart_of_parse parsed] at within
    simp only [SessionCache.insert, within]
    exact refreshed.store_has_iff lasting rfl rfl lacks

theorem exists_reuse {outcome : Except Fault (IncrementalParser × Except CacheError IncrementalParse)}
    {result : ParseResult} (parsed : grammar.parse parser.config tokens.toArray = .ok result)
    (response : Responds parser looked stored grammar tokens outcome) :
    ∃ next answer, outcome = .ok (next, .ok answer) ∧
      (answer.reuse.outcome = .fullHit ∧ answer.reuse.reusedTokens = tokens.length ↔
        (parser.cache.refresh looked grammar.key).Has grammar.key.name (Fingerprint.ofTokens tokens)) := by
  cases response with
  | found has => exact ⟨_, _, rfl, iff_of_true ⟨rfl, rfl⟩ has⟩
  | stored lacks _ partly _ => exact ⟨_, _, rfl, iff_of_false (fun full => partly full.1) lacks⟩
  | failed failure => cases parsed.symm.trans failure

end Responds

/-- The second of two equal requests finds the parse exactly if there was room for it at the first. -/
theorem IsOrderly.askTwice_ok (orderly : parser.IsOrderly settings config)
    (incremental : config.incremental = true) (lasting : 0 < config.timeToLive) (now : Duration)
    {grammar : Grammar} {tokens : List Token} {result : ParseResult}
    (parsed : grammar.parse settings tokens.toArray = .ok result)
    (within : (Chart.build grammar settings tokens.toArray).isLimitExceeded = false) :
    ∃ reuse, parser.askTwice now grammar tokens = .ok (.ok reuse) ∧
      (reuse.outcome = .fullHit ∧ reuse.reusedTokens = tokens.length ↔
        (parser.cache.refresh now grammar.key).HasRoom now grammar.key.name
          (Fingerprint.ofTokens tokens)) := by
  have first := orderly.responds incremental now now grammar tokens
  obtain ⟨once, answer, asked, -⟩ := first.exists_reuse (orderly.settings ▸ parsed)
  rw [asked] at first
  have kept := orderly.next first
  have second := kept.responds incremental now now grammar tokens
  obtain ⟨twice, again, repeated, reused⟩ := second.exists_reuse (kept.settings ▸ parsed)
  refine ⟨again.reuse, ?_, reused.trans (first.has_iff orderly lasting within)⟩
  simp only [askTwice, asked, repeated, bind, Except.bind, pure, Except.pure, Except.map]

end IncrementalParser

/-- Whatever was asked before, asking twice in a row gives a full hit exactly if there is room for the
parse when it is asked for first. -/
theorem asked_again_exact {draft : GrammarDraft} {grammar : Grammar} (built : draft.build = .ok grammar)
    (settings : ChartConfig) (config : CacheConfig) (incremental : config.incremental = true)
    (lasting : 0 < config.timeToLive) (requests : List ParseRequest) (now : Duration)
    (tokens : List Token)
    (within : (Chart.build grammar settings tokens.toArray).isLimitExceeded = false) :
    ∃ reuse, ((IncrementalParser.start settings config).run requests).askTwice now grammar tokens =
        .ok (.ok reuse) ∧
      (reuse.outcome = .fullHit ∧ reuse.reusedTokens = tokens.length ↔
        (((IncrementalParser.start settings config).run requests).cache.refresh now
          grammar.key).HasRoom now grammar.key.name (Fingerprint.ofTokens tokens)) := by
  have orderly := (IncrementalParser.start_orderly settings config).run incremental requests
  obtain ⟨result, parsed, -, -⟩ := (GrammarDraft.isBuilt built).parse_ok settings tokens.toArray
  exact orderly.askTwice_ok incremental lasting now parsed within

/-- One entry that was not asked for again makes room for the next. -/
theorem longerSum_kept :
    sumsDraft.build = .ok sums ∧
      (Chart.build sums {} (threeOnes.toList.take 4).toArray).isLimitExceeded = false ∧
      ∃ reuse, ((IncrementalParser.start {} { maxEntries := 1 }).run
          [⟨0, 0, sums, threeOnes.toList.take 2⟩]).askTwice 0 sums (threeOnes.toList.take 4) =
            .ok (.ok reuse) ∧
        reuse.outcome = .fullHit ∧ reuse.reusedTokens = (threeOnes.toList.take 4).length := by
  have within : (Chart.build sums {} (threeOnes.toList.take 4).toArray).isLimitExceeded = false := by
    decide +kernel
  obtain ⟨reuse, asked, exact⟩ := asked_again_exact sumsDraft_builds {} { maxEntries := 1 } rfl
    (by decide) [⟨0, 0, sums, threeOnes.toList.take 2⟩] 0 (threeOnes.toList.take 4) within
  exact ⟨sumsDraft_builds, within, reuse, asked, exact.mpr (Or.inr (Or.inr (by decide +kernel)))⟩

/-- One entry that was asked for again does not: the next is forgotten between two equal requests. -/
theorem longerSum_forgotten :
    sumsDraft.build = .ok sums ∧
      (Chart.build sums {} (threeOnes.toList.take 4).toArray).isLimitExceeded = false ∧
      (((IncrementalParser.start {} { maxEntries := 1 }).run
          [⟨0, 0, sums, threeOnes.toList.take 2⟩, ⟨0, 0, sums, threeOnes.toList.take 2⟩]).askTwice 0 sums
            (threeOnes.toList.take 4)).map (·.map (·.outcome)) = .ok (.ok (.partialHit 2)) :=
  ⟨sumsDraft_builds, by decide +kernel, by decide +kernel⟩

end Readings
