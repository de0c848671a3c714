import Readings.Chart.Printer
import Readings.Forest.Printer
import Readings.Json.Printer
import Readings.Report.Request
import Readings.Report.Snapshot
import Readings.Report.Text

/-! The forms in which an analysis can be put out. -/

namespace Readings

inductive OutputFormat where
  | text
  | dot
  | json
  | chart
  | trace
deriving Repr, DecidableEq, Inhabited

namespace OutputFormat

def ofName? (name : String) : Option OutputFormat :=
  match String.ofList (Text.lower name.toList) with
  | "text" | "report" => some .text
  | "dot" | "graphviz" => some .dot
  | "json" => some .json
  | "chart" => some .chart
  | "trace" => some .trace
  | _ => none

def unknownMessage (name : String) : String :=
  "Unknown format: " ++ name ++ ". Supported: text, dot, json, chart, trace"

end OutputFormat

namespace Analysis

def renderTraces (analysis : Analysis) (grammar : Grammar) (tokens : Array Token) :
    Except Fault String := do
  let readings ← analysis.derivations.zipIdx.mapM fun (derivation, index) => do
    let steps ← derivation.trace grammar tokens
    return "reading " ++ toString (index + 1) ++ ":\n" ++
      String.join (steps.map fun step => "  => " ++ step ++ "\n")
  return String.join readings

def renderAs (analysis : Analysis) (grammar : Grammar) (request : Request) (format : OutputFormat) :
    Except Fault String :=
  let tokens := request.tokens.toArray
  match format with
  | .text => analysis.render grammar tokens request.source
  | .dot => analysis.forest.renderGraph grammar tokens
  | .json => do return (← analysis.snapshot grammar request.tokens).renderIndented ++ "\n"
  | .chart => analysis.result.chart.render grammar tokens
  | .trace => analysis.renderTraces grammar tokens

end Analysis

end Readings
