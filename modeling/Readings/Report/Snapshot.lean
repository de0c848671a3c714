import Readings.Derivation.Printer
import Readings.Forest.Json
import Readings.Report.Summary

/-! The analysis of a request as one JSON value. -/

namespace Readings

def TextRange.toJson (range : TextRange) : Json :=
  .object [("start", .nat range.start), ("end", .nat range.stop)]

def Token.toJson (token : Token) : Json :=
  .object [("text", .text token.text), ("kind", .text token.kind), ("tags", .texts token.tags),
    ("span", token.span.toJson), ("merged", .bool token.merged)]

def Alternative.toJson (alternative : Alternative) : Json :=
  .object [("node", .nat alternative.node), ("rule", .nat alternative.rule),
    ("rule_name", .text alternative.ruleName), ("priority", .int alternative.priority),
    ("action", .optional .text alternative.action), ("description", .text alternative.description)]

def AmbiguityPoint.toJson (point : AmbiguityPoint) : Json :=
  .object [("node", .nat point.node), ("symbol", .text point.symbol), ("span", point.span.toJson),
    ("text_range", point.textRange.toJson), ("source_text", .text point.sourceText),
    ("alternatives", .array (point.alternatives.map Alternative.toJson)),
    ("severity", .text point.severity.render)]

def FactorScore.toJson (factor : FactorScore) : Json :=
  .object [("name", .text factor.name), ("value", .float factor.value),
    ("weight", .float factor.weight)]

def RankedParse.toJson (parse : RankedParse) : Json :=
  .object [("rank", .nat parse.rank), ("derivation", .nat parse.scored.derivation),
    ("score", .float parse.scored.score), ("confidence", .text parse.confidence.render),
    ("breakdown", .object [("factors", .array (parse.scored.factors.map FactorScore.toJson))]),
    ("needs_clarification", .bool parse.needsClarification)]

def Ranking.toJson (ranking : Ranking) : Json :=
  .object [("parses", .array (ranking.parses.map RankedParse.toJson)),
    ("confidence", .text ranking.confidence.render),
    ("needs_clarification", .bool ranking.needsClarification)]

def ParseError.toJson (error : ParseError) : Json :=
  .object [("message", .text error.message), ("position", .nat error.position),
    ("expected", .texts error.expected), ("feedback", .text error.feedback)]

def Analysis.snapshot (analysis : Analysis) (grammar : Grammar) (tokens : List Token) :
    Except Fault Json := do
  let summary ← analysis.summary
  let derivations ← analysis.derivations.mapM fun derivation =>
    derivation.bracketed grammar tokens.toArray
  return .object [("summary", summary.toJson), ("tokens", .array (tokens.map Token.toJson)),
    ("error", .optional ParseError.toJson analysis.error), ("derivations", .texts derivations),
    ("forest", analysis.forest.toJson),
    ("ambiguity_points", .array (analysis.ambiguityPoints.map AmbiguityPoint.toJson)),
    ("ranking", analysis.ranking.toJson)]

end Readings
