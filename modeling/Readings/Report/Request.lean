import Readings.Grammar.Json
import Readings.Json.Reader
import Readings.Lexicon

/-! Requests: tokens together with the text that their offsets refer to. A request comes as plain text
or as a JSON file, which holds tokens alone or with their text. -/

namespace Readings

structure Request where
  tokens : List Token
  source : String
deriving Repr, DecidableEq, Inhabited

namespace Request

def ofText (text : String) : Request :=
  { tokens := Token.ofWords text Lexicon.empty.classOf, source := text }

/-- A request without its text, in which every token stands at its offset. -/
def ofTokens (tokens : List Token) : Request := { tokens, source := Token.layOut tokens }

def withSource? : Json → Option Request
  | .object fields => do
    let [text, tokens] ← (Json.object fields).record? ["text", "tokens"] | none
    let source ← Json.required? Json.toText? text
    let tokens ← Json.required? (Json.toList? Token.ofJson?) tokens
    return { tokens, source }
  | _ => none

def ofJson? (text : String) : Option Request := do
  let value ← Json.parse? text
  if value.isStorable then
    withSource? value <|> (value.toList? Token.ofJson?).map ofTokens
  else none

def expectation : String :=
  "expected a token array or an object with \x60text\x60 and \x60tokens\x60"

end Request

end Readings
