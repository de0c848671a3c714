import Readings.Derivation.Printer
import Readings.Report.Summary

/-! The report of an analysis in words: its figures and, if there is a reading, the ambiguity points,
the ranking and the best derivation, or else what went wrong and where. -/

namespace Readings

namespace Text

/-- A line feed may have a carriage return in front of it. -/
def dropReturn (line : List Char) : List Char :=
  if line.getLast? = some '\r' then line.dropLast else line

/-- The lines of a text, of which the last may lack its end; `line` holds the characters of the line
read so far, last first. -/
def linesFrom (line : List Char) : List Char → List (List Char)
  | [] => if line.isEmpty then [] else [line.reverse]
  | c :: rest =>
    if c = '\n' then dropReturn line.reverse :: linesFrom [] rest else linesFrom (c :: line) rest

def lines (text : String) : List String := (linesFrom [] text.toList).map String.ofList

end Text

/-- How many characters of the request are shown on either side of an error. -/
def errorContextWidth : Nat := 24

def Alternative.render (alternative : Alternative) : String :=
  "    - " ++ alternative.ruleName ++ " (p" ++ toString alternative.priority ++ ")" ++
    renderAction alternative.action ++
    (if alternative.description.isEmpty then "" else ": " ++ alternative.description) ++ "\n"

def AmbiguityPoint.render (point : AmbiguityPoint) : String :=
  "  " ++ point.symbol ++ " over " ++ Text.quote point.sourceText ++ " " ++ point.span.render ++ ": " ++
    point.severity.render ++ " severity, " ++ toString point.alternatives.length ++ " readings\n" ++
    String.join (point.alternatives.map Alternative.render)

def FactorScore.render (factor : FactorScore) : String :=
  factor.name ++ " " ++ Decimal.fixed 2 factor.value ++ "x" ++ Decimal.fixed 2 factor.weight

/-- A line with rank, score and derivation, and a line with the factors. -/
def RankedParse.render (parse : RankedParse) (grammar : Grammar) (tokens : Array Token)
    (derivation : Derivation) : Except Fault String := do
  return "  #" ++ toString parse.rank ++ " " ++ Decimal.fixed 3 parse.scored.score ++ " " ++
    (← derivation.bracketed grammar tokens) ++ "\n     " ++
    ", ".intercalate (parse.scored.factors.map FactorScore.render) ++ "\n"

namespace Analysis

def renderPoints (analysis : Analysis) : String :=
  if analysis.ambiguityPoints.isEmpty then ""
  else "\nambiguity points:\n" ++ String.join (analysis.ambiguityPoints.map AmbiguityPoint.render)

def renderRanking (analysis : Analysis) (grammar : Grammar) (tokens : Array Token) :
    Except Fault String := do
  if analysis.ranking.parses.isEmpty then return ""
  else
    let lines ← analysis.ranking.parses.mapM fun parse =>
      match analysis.derivations[parse.scored.derivation]? with
      | some derivation => parse.render grammar tokens derivation
      | none => .ok ""
    return "\nranking:\n" ++ String.join lines

def renderBest (analysis : Analysis) (grammar : Grammar) (tokens : Array Token) :
    Except Fault String :=
  match analysis.best? with
  | none => .ok ""
  | some (_, derivation) => do
    let lines := Text.lines (← derivation.render grammar tokens)
    return "\nbest derivation:\n" ++ String.join (lines.map fun line => "  " ++ line ++ "\n")

def render (analysis : Analysis) (grammar : Grammar) (tokens : Array Token) (source : String) :
    Except Fault String := do
  let summary := (← analysis.summary).render
  match analysis.error with
  | some error =>
    let context ← error.renderWithContext source errorContextWidth
    return summary ++ "\nerror: " ++ context ++ "\nfeedback: " ++ error.feedback ++ "\n"
  | none =>
    return summary ++ analysis.renderPoints ++ (← analysis.renderRanking grammar tokens) ++
      (← analysis.renderBest grammar tokens)

end Analysis

end Readings
