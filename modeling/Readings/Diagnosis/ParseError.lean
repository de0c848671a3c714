import Readings.Chart.Build
import Readings.Diagnosis.Excerpt
import Readings.Diagnosis.Suggestion

/-! Why a request has no reading, in words. An error names the place where the parse came to a stop and
what would have gone on from there. -/

namespace Readings

inductive ParseError where
  | unexpectedToken (span : TextRange) (position : Nat) (found : String) (expected : List String)
  | unexpectedEnd (span : TextRange) (position : Nat) (expected : List String)
  | resourceLimit (hit : LimitHit)
deriving Repr, DecidableEq

def renderExpected : List String → String
  | [] => "nothing"
  | [only] => only
  | [first, second] => first ++ " or " ++ second
  | several => ", ".intercalate several.dropLast ++ ", or " ++ several.getLastD ""

def unquote? (text : String) : Option String :=
  match text.toList with
  | '"' :: rest =>
    match rest.reverse with
    | '"' :: inside => some (String.ofList inside.reverse)
    | _ => none
  | _ => none

def expectedWords (expected : List String) : List String := expected.filterMap unquote?

namespace ParseError

def message : ParseError → String
  | .unexpectedToken _ position found expected =>
    "Unexpected '" ++ found ++ "' at token " ++ toString position ++ ", expected " ++
      renderExpected expected
  | .unexpectedEnd _ _ expected => "Unexpected end of input, expected " ++ renderExpected expected
  | .resourceLimit hit =>
    "Chart limit exceeded at token " ++ toString hit.position ++ ": " ++ toString hit.items ++
      " items (limit " ++ toString hit.limit ++ ")"

def kind : ParseError → String
  | .unexpectedToken _ _ _ _ => "UnexpectedToken"
  | .unexpectedEnd _ _ _ => "UnexpectedEnd"
  | .resourceLimit _ => "ResourceLimit"

def code : ParseError → String
  | .unexpectedToken _ _ _ _ => "parser::unexpected_token"
  | .unexpectedEnd _ _ _ => "parser::unexpected_end"
  | .resourceLimit _ => "parser::resource_limit"

def help? : ParseError → Option String
  | .resourceLimit _ =>
    some ("the grammar is too ambiguous for this input; raise the chart limits or simplify the " ++
      "request")
  | _ => none

def span? : ParseError → Option TextRange
  | .unexpectedToken span _ _ _ => some span
  | .unexpectedEnd span _ _ => some span
  | .resourceLimit _ => none

def label? : ParseError → Option (String × TextRange)
  | .unexpectedToken span _ _ _ => some ("not understood", span)
  | .unexpectedEnd span _ _ => some ("input ends here", span)
  | .resourceLimit _ => none

def position : ParseError → Nat
  | .unexpectedToken _ position _ _ => position
  | .unexpectedEnd _ position _ => position
  | .resourceLimit hit => hit.position

def expected : ParseError → List String
  | .unexpectedToken _ _ _ expected => expected
  | .unexpectedEnd _ _ expected => expected
  | .resourceLimit _ => []

def isResourceLimit : ParseError → Bool
  | .resourceLimit _ => true
  | _ => false

/-- A question after the expected word that is most similar to what was typed. -/
def didYouMean? (error : ParseError) (actual : String) : Option String :=
  (closestWord? actual (expectedWords error.expected)).map fun word =>
    "Did you mean '" ++ word ++ "'?"

def feedback (error : ParseError) : String :=
  match error with
  | .unexpectedToken _ _ found _ =>
    "I didn't understand \"" ++ found ++ "\"" ++
      (match error.didYouMean? found with
       | some question => ". " ++ question
       | none => "")
  | .unexpectedEnd _ _ expected =>
    "The request seems incomplete; I expected " ++ renderExpected expected
  | .resourceLimit _ => "The request has too many possible readings to analyse"

/-- The lines that show the span inside the request, with carets under it. -/
def renderExcerpt (piece : Excerpt) : String :=
  let carets := List.replicate (max piece.inside.length 1) '^'
  let margin := List.replicate piece.before.length ' '
  "\n  " ++ String.ofList (piece.before ++ piece.inside ++ piece.after) ++
    "\n  " ++ String.ofList (margin ++ carets)

def renderHint : ParseError → String
  | .unexpectedToken _ _ found expected =>
    match similarWords found (expectedWords expected) 3 with
    | [] => ""
    | words => "\n  hint: try " ++ ", ".intercalate words
  | _ => ""

/-- The message, an excerpt of the request with up to `width` characters on either side of the span,
and a hint. -/
def renderWithContext (error : ParseError) (source : String) (width : Nat) : Except Fault String := do
  let piece ← match error.span? with
    | some span => excerpt source.toList span width
    | none => .ok none
  return error.message ++ (piece.map renderExcerpt).getD "" ++ error.renderHint

/-- The number of bytes in front of a character, kept to the highest offset. -/
def byteOffset (source : List Char) (offset : Nat) : Nat :=
  min (((source.take offset).map fun c => c.utf8Size).foldr (· + ·) 0) (offsetBound - 1)

def byteRange (source : List Char) (range : TextRange) : TextRange :=
  TextRange.between (byteOffset source range.start) (byteOffset source range.stop)

def withByteSpan (error : ParseError) (source : String) : ParseError :=
  match error with
  | .unexpectedToken span position found expected =>
    .unexpectedToken (byteRange source.toList span) position found expected
  | .unexpectedEnd span position expected =>
    .unexpectedEnd (byteRange source.toList span) position expected
  | .resourceLimit hit => .resourceLimit hit

end ParseError

def Chart.error? (chart : Chart) (tokens : Array Token) : Option ParseError :=
  match chart.outcome with
  | .success => none
  | .limitExceeded hit => some (.resourceLimit hit)
  | .failed position expected =>
    let expected := expected.map Terminal.render
    match tokens[position]? with
    | some token => some (.unexpectedToken token.span position token.text expected)
    | none =>
      let stop := (tokens.back?.map fun token => token.span.stop).getD 0
      some (.unexpectedEnd (TextRange.empty stop) position expected)

end Readings
