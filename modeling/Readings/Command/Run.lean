import Readings.Command.Basic

/-! What commands do, apart from reading and writing the files. -/

namespace Readings

structure Outcome where
  content : String
  /-- The file that the content goes to; without one it is printed. -/
  file : Option String
  succeeded : Bool
deriving Repr, DecidableEq

namespace Outcome

def failure : Outcome := { content := "", file := none, succeeded := false }

def printed (content : String) : Outcome := { content, file := none, succeeded := true }

def status (outcome : Outcome) : Nat := if outcome.succeeded then 0 else 1

end Outcome

namespace Command

def usageStatus : Nat := 2

def faultStatus : Nat := 101

def versionLine : String := "ambit 0.1.0\n"

def grammarOf? (text : String) : Option Grammar := do
  let draft ← (Json.parse? text).bind GrammarDraft.ofJson?
  draft.build.toOption

def requestOf? (read : String → Option String) : RequestSource → Option Request
  | .file name => (read name).bind Request.ofJson?
  | .text text => some (Request.ofText text)

def analyzerConfig (options : ParseOptions) : AnalyzerConfig :=
  let chart : ChartConfig := {}
  { chart := (options.maxDerivations.map chart.withMaxDerivations).getD chart
    prune := options.prune }

def analyze (options : ParseOptions) (grammar : Grammar) (request : Request) :
    Except Fault Outcome := do
  let analyzer := Analyzer.ofConfig grammar (analyzerConfig options)
  let analysis ← analyzer.analyze request.tokens none
  let content ← analysis.renderAs grammar request options.format
  return { content, file := options.output, succeeded := analysis.isSuccess }

def run (read : String → Option String) : Command → Except Fault Outcome
  | .version => .ok (.printed versionLine)
  | .check file =>
    match (read file).bind grammarOf? with
    | some grammar => .ok (.printed grammar.describe)
    | none => .ok .failure
  | .parse options =>
    match (read options.grammar).bind grammarOf?, requestOf? read options.request with
    | some grammar, some request => analyze options grammar request
    | _, _ => .ok .failure

end Command

end Readings
