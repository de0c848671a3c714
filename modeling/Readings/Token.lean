import Readings.Text.Characters
import Readings.Text.Range

/-! Tokens: the words of a request as a tokenizer hands them over, each with its text, a kind, tags
and the characters it came from. `Token.ofWords` cuts a text at its blanks, `layOut` puts tokens back
at their offsets, and `TokenSpan` is a half-open range of token positions. -/

namespace Readings

structure Token where
  text : String
  kind : String
  tags : List String
  span : TextRange
  /-- The tokenizer joined several words into this token. -/
  merged : Bool
deriving Repr, DecidableEq, Inhabited

/-- Trims a text and, if a capital letter is in it, lowercases it. -/
def normalize (text : String) : String :=
  let trimmed := Text.trimChars text.toList
  String.ofList (if trimmed.any Text.isUpper then Text.lower trimmed else trimmed)

namespace Token

def normalizedText (token : Token) : String := normalize token.text

def hasTag (token : Token) (tag : String) : Bool := token.tags.contains tag

structure WordClass where
  kind : String
  tags : List String
deriving Repr, DecidableEq, Inhabited

/-- The maximal runs of characters that are not blank, each with the offset of its first character.
`word` holds the characters of the run read so far, last first, and `offset` that of the next one. -/
def wordsFrom (offset : Nat) (word : List Char) : List Char → List (Nat × List Char)
  | [] => if word.isEmpty then [] else [(offset - word.length, word.reverse)]
  | c :: rest =>
    if Text.isBlank c then
      (if word.isEmpty then [] else [(offset - word.length, word.reverse)]) ++
        wordsFrom (offset + 1) [] rest
    else wordsFrom (offset + 1) (c :: word) rest

def ofWord (classify : String → WordClass) (start : Nat) (word : List Char) : Token :=
  let text := String.ofList word
  let wordClass := classify text
  { text, kind := wordClass.kind, tags := wordClass.tags,
    span := ⟨start, start + word.length, Nat.le_add_right ..⟩, merged := false }

/-- The words of a text, cut at its blanks and classified one by one. -/
def ofWords (text : String) (classify : String → WordClass) : List Token :=
  (wordsFrom 0 [] text.toList).map fun (start, word) => ofWord classify start word

/-- Appends each token at its offset, with spaces for the gap in front of it; a token that starts
before the text laid out so far ends follows it directly. -/
def layOutFrom (length : Nat) : List Token → List Char
  | [] => []
  | token :: tokens =>
    let gap := List.replicate (token.span.start - length) ' '
    let word := token.text.toList
    gap ++ word ++ layOutFrom (length + gap.length + word.length) tokens

def layOut (tokens : List Token) : String := String.ofList (layOutFrom 0 tokens)

end Token

/-- The token positions from `start` up to, but not including, `stop`. -/
structure TokenSpan where
  start : Nat
  stop : Nat
deriving Repr, DecidableEq, Inhabited, Hashable

namespace TokenSpan

/-- The number of tokens; a span that ends before it starts has none to give. -/
def length (span : TokenSpan) : Except Fault Nat :=
  if span.start ≤ span.stop then .ok (span.stop - span.start) else .error .outOfRange

def isEmpty (span : TokenSpan) : Bool := span.start == span.stop

def contains (outer inner : TokenSpan) : Bool :=
  outer.start ≤ inner.start && inner.stop ≤ outer.stop

/-- By start, then by stop. -/
def compare (a b : TokenSpan) : Ordering :=
  (Ord.compare a.start b.start).then (Ord.compare a.stop b.stop)

/-- The offset at which an empty span sits: where its token starts, or where the one before it
ends. -/
def boundary (position : Nat) (tokens : Array Token) : Nat :=
  match tokens[position]? with
  | some next => next.span.start
  | none =>
    if position = 0 then 0
    else match tokens[position - 1]? with
      | some before => before.span.stop
      | none => 0

def textRange (span : TokenSpan) (tokens : Array Token) : Except Fault TextRange :=
  if span.isEmpty then .ok (TextRange.empty (boundary span.start tokens))
  else if span.stop = 0 then .error .outOfRange
  else match tokens[span.start]?, tokens[span.stop - 1]? with
    | some first, some last => .ok (first.span.cover last.span)
    | _, _ => .ok default

def render (span : TokenSpan) : String :=
  "[" ++ toString span.start ++ ", " ++ toString span.stop ++ ")"

end TokenSpan

end Readings
