import Readings.Analysis.Basic
import Readings.Time.Debounce

/-! Live sessions: a request is analysed again and again while it is typed, with a cache in front of
the parser and a policy that says when. -/

namespace Readings

structure Session where
  analyzer : Analyzer
  parser : IncrementalParser
  policy : DebouncePolicy
  tracker : DebounceTracker
  discourse : Option Discourse

structure SessionAnalysis where
  analysis : Analysis
  reuse : ReuseInfo

namespace Session

def start (grammar : Grammar) (config : AnalyzerConfig) (cache : CacheConfig)
    (policy : DebouncePolicy) (discourse : Option Discourse) : Session :=
  { analyzer := Analyzer.ofConfig grammar config
    parser := IncrementalParser.start config.chart cache
    policy, tracker := {}, discourse }

def keystroke (session : Session) (now : Duration) : Session :=
  { session with tracker := session.tracker.recordKeystroke now }

def withDiscourse (session : Session) (discourse : Option Discourse) : Session :=
  { session with discourse }

/-- What to do about pending keystrokes; without any there is nothing to decide. -/
def poll (session : Session) (now : Duration) : Option DebounceDecision :=
  if session.tracker.hasPending then
    some (session.policy.decide (session.tracker.snapshot now))
  else none

def analyze (session : Session) (looked stored finished : Duration) (tokens : List Token) :
    Except Fault (Session × Except CacheError SessionAnalysis) := do
  let (parser, parsed) ← session.parser.parse looked stored session.analyzer.grammar tokens
  match parsed with
  | .error error => return ({ session with parser }, .error error)
  | .ok parse =>
    let analysis ← session.analyzer.assemble tokens parse.result session.discourse
    return ({ session with parser, tracker := session.tracker.recordParse finished },
      .ok ⟨analysis, parse.reuse⟩)

end Session

end Readings
