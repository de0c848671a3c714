import Readings.Analysis.Session
import Readings.Proofs.AnalysisAnswers
import Readings.Proofs.GenuineCache

/-! Runs of a session. Whatever is typed, polled, set and analysed before, and whatever the clock shows
at each step, an analysis comes to its end and is the one that an analyzer without a cache makes. -/

namespace Readings

/-- What can happen to a session, with the times that it reads from the clock. -/
inductive SessionStep where
  | keystroke (now : Duration)
  | poll (now : Duration)
  | setDiscourse (discourse : Option Discourse)
  | analyze (looked stored finished : Duration) (tokens : List Token)

namespace Session

/-- The session after one step. A poll only asks, and an analysis that fails leaves the session. -/
def step (session : Session) : SessionStep → Session
  | .keystroke now => session.keystroke now
  | .poll _ => session
  | .setDiscourse discourse => session.withDiscourse discourse
  | .analyze looked stored finished tokens =>
    match session.analyze looked stored finished tokens with
    | .ok (next, _) => next
    | .error _ => session

def run (session : Session) (steps : List SessionStep) : Session := steps.foldl step session

end Session

def lastDiscourse (discourse : Option Discourse) (steps : List SessionStep) : Option Discourse :=
  steps.foldl
    (fun known step =>
      match step with
      | .setDiscourse next => next
      | _ => known)
    discourse

structure Session.IsSound (grammar : Grammar) (config : AnalyzerConfig) (discourse : Option Discourse)
    (session : Session) : Prop where
  analyzer : session.analyzer = Analyzer.ofConfig grammar config
  config : session.parser.config = config.chart
  discourse : session.discourse = discourse
  genuine : session.parser.IsGenuine grammar

namespace Session.IsSound

variable {grammar : Grammar} {config : AnalyzerConfig} {discourse : Option Discourse} {session : Session}

theorem start (grammar : Grammar) (config : AnalyzerConfig) (cache : CacheConfig)
    (policy : DebouncePolicy) (discourse : Option Discourse) :
    (Session.start grammar config cache policy discourse).IsSound grammar config discourse :=
  ⟨rfl, rfl, rfl, IncrementalParser.start_genuine grammar config.chart cache⟩

/-- An analysis goes as without a cache: it parses, and assembles the parse. -/
private theorem analyze_eq (sound : session.IsSound grammar config discourse)
    (looked stored finished : Duration) {tokens : List Token} {result : ParseResult}
    (parsed : grammar.parse config.chart tokens.toArray = .ok result) :
    ∃ parser reuse, parser.IsGenuine grammar ∧ parser.config = config.chart ∧
      session.analyze looked stored finished tokens =
        ((Analyzer.ofConfig grammar config).assemble tokens result discourse).map fun analysis =>
          ({ session with parser, tracker := session.tracker.recordParse finished },
            .ok ⟨analysis, reuse⟩) := by
  rw [← sound.config] at parsed
  obtain ⟨parser, reuse, found, genuine, same⟩ := sound.genuine.parse looked stored parsed
  refine ⟨parser, reuse, genuine, same.trans sound.config, ?_⟩
  have own : session.analyzer.grammar = grammar := by rw [sound.analyzer]; rfl
  simp only [Session.analyze, own, found, bind, Except.bind]
  simp only [sound.analyzer, sound.discourse]
  cases (Analyzer.ofConfig grammar config).assemble tokens result discourse <;> rfl

theorem step (built : grammar.IsBuilt) (sound : session.IsSound grammar config discourse)
    (action : SessionStep) :
    (session.step action).IsSound grammar config (lastDiscourse discourse [action]) := by
  cases action with
  | keystroke now => exact ⟨sound.analyzer, sound.config, sound.discourse, sound.genuine⟩
  | poll now => exact sound
  | setDiscourse next => exact ⟨sound.analyzer, sound.config, rfl, sound.genuine⟩
  | analyze looked stored finished tokens =>
    obtain ⟨result, parsed, -, -⟩ := built.parse_ok config.chart tokens.toArray
    obtain ⟨parser, reuse, genuine, same, analyzed⟩ :=
      sound.analyze_eq looked stored finished parsed
    rw [Session.step, analyzed]
    cases (Analyzer.ofConfig grammar config).assemble tokens result discourse with
    | error fault => exact sound
    | ok analysis => exact ⟨sound.analyzer, same, sound.discourse, genuine⟩

theorem run (built : grammar.IsBuilt) (sound : session.IsSound grammar config discourse)
    (steps : List SessionStep) :
    (session.run steps).IsSound grammar config (lastDiscourse discourse steps) := by
  induction steps generalizing session discourse with
  | nil => exact sound
  | cons action steps ih => exact ih (sound.step built action)

end Session.IsSound

/-- After any run an analysis is the one made from scratch, whatever the cache had in it. -/
theorem session_transparent {draft : GrammarDraft} {grammar : Grammar}
    (built : draft.build = .ok grammar) (config : AnalyzerConfig) (cache : CacheConfig)
    (policy : DebouncePolicy) (discourse : Option Discourse) (steps : List SessionStep)
    (looked stored finished : Duration) (tokens : List Token) (short : tokens.length < countBound) :
    ∃ next answer,
      ((Session.start grammar config cache policy discourse).run steps).analyze looked stored finished
          tokens =
        .ok (next, .ok answer) ∧
      (Analyzer.ofConfig grammar config).analyze tokens (lastDiscourse discourse steps) =
        .ok answer.analysis := by
  have proper := GrammarDraft.isBuilt built
  have sound := (Session.IsSound.start grammar config cache policy discourse).run proper steps
  obtain ⟨result, parsed, -, readings⟩ := proper.parse_ok config.chart tokens.toArray
  obtain ⟨analysis, assembled⟩ := (Analyzer.ofConfig grammar config).assemble_ok proper short
    (lastDiscourse discourse steps) readings
  obtain ⟨parser, reuse, -, -, analyzed⟩ := sound.analyze_eq looked stored finished parsed
  rw [analyzed, assembled]
  refine ⟨_, ⟨analysis, reuse⟩, rfl, ?_⟩
  have fresh : (Analyzer.ofConfig grammar config).grammar.parse
      (Analyzer.ofConfig grammar config).config.chart tokens.toArray = .ok result := parsed
  simp only [Analyzer.analyze, fresh, bind, Except.bind, assembled]

theorem session_transparent_again :
    sumsDraft.build = .ok sums ∧ threeOnes.toList.length < countBound ∧ ∃ next answer,
      ((Session.start sums {} {} {} none).run
          [.keystroke 5, .analyze 7 8 6 threeOnes.toList, .setDiscourse (some {}), .poll 3]).analyze 9 9 12
          threeOnes.toList = .ok (next, .ok answer) ∧
        (Analyzer.ofConfig sums {}).analyze threeOnes.toList (some {}) = .ok answer.analysis := by
  have short : threeOnes.toList.length < countBound := by decide +kernel
  exact ⟨sumsDraft_builds, short, session_transparent sumsDraft_builds {} {} {} none
    [.keystroke 5, .analyze 7 8 6 threeOnes.toList, .setDiscourse (some {}), .poll 3] 9 9 12
    threeOnes.toList short⟩

end Readings
