import Readings.Json.Basic

/-! Reading JSON text. Each reader takes the characters that are left and returns what it read with
the characters behind it. -/

namespace Readings.Json.Reader

def isSpace (c : Char) : Bool := c == ' ' || c == '\t' || c == '\n' || c == '\r'

def skipSpace (input : List Char) : List Char := input.dropWhile isSpace

def digits (value count : Nat) : List Char → Nat × Nat × List Char
  | [] => (value, count, [])
  | c :: rest =>
    if c.isDigit then digits (value * 10 + (c.toNat - '0'.toNat)) (count + 1) rest
    else (value, count, c :: rest)

/-- The whole part of a number: a zero alone, or digits that do not start with one. -/
def whole? (input : List Char) : Option (Nat × List Char) :=
  match input with
  | '0' :: rest =>
    match rest with
    | c :: _ => if c.isDigit then none else some (0, rest)
    | [] => some (0, [])
  | _ =>
    match digits 0 0 input with
    | (_, 0, _) => none
    | (value, _, rest) => some (value, rest)

def fraction? (value : Nat) : List Char → Option (Nat × Nat × List Char)
  | '.' :: rest =>
    match digits value 0 rest with
    | (_, 0, _) => none
    | (value, count, rest) => some (value, count, rest)
  | rest => some (value, 0, rest)

def exponent? (input : List Char) : Option (Option Int × List Char) :=
  match input with
  | c :: rest =>
    if c == 'e' || c == 'E' then
      let (negative, rest) := match rest with
        | '-' :: rest => (true, rest)
        | '+' :: rest => (false, rest)
        | rest => (false, rest)
      match digits 0 0 rest with
      | (_, 0, _) => none
      | (value, _, rest) => some (some (if negative then -(value : Int) else value), rest)
    else some (none, input)
  | [] => some (none, [])

def number? (input : List Char) : Option (Number × List Char) := do
  let (negative, rest) := match input with
    | '-' :: rest => (true, rest)
    | rest => (false, rest)
  let (value, rest) ← whole? rest
  let (value, places, rest) ← fraction? value rest
  let (exponent, rest) ← exponent? rest
  return (⟨negative, value, exponent.getD 0 - places, places == 0 && exponent.isNone⟩, rest)

def hexDigit? (c : Char) : Option Nat :=
  if c.isDigit then some (c.toNat - '0'.toNat)
  else if 'a' ≤ c ∧ c ≤ 'f' then some (c.toNat - 'a'.toNat + 10)
  else if 'A' ≤ c ∧ c ≤ 'F' then some (c.toNat - 'A'.toNat + 10)
  else none

def escape? : Char → Option Char
  | '"' => some '"'
  | '\\' => some '\\'
  | '/' => some '/'
  | 'b' => some '\x08'
  | 'f' => some '\x0c'
  | 'n' => some '\n'
  | 'r' => some '\r'
  | 't' => some '\t'
  | _ => none

/-- The code units of a string behind its opening quote, last first. -/
def units? (read : List Nat) : List Char → Option (List Nat × List Char)
  | [] => none
  | '"' :: rest => some (read, rest)
  | '\\' :: 'u' :: a :: b :: c :: d :: rest =>
    match hexDigit? a, hexDigit? b, hexDigit? c, hexDigit? d with
    | some a, some b, some c, some d => units? ((((a * 16 + b) * 16 + c) * 16 + d) :: read) rest
    | _, _, _, _ => none
  | '\\' :: letter :: rest =>
    match escape? letter with
    | some c => units? (c.toNat :: read) rest
    | none => none
  | c :: rest => if c.toNat < 0x20 || c == '\\' then none else units? (c.toNat :: read) rest

def isLeading (unit : Nat) : Bool := 0xD800 ≤ unit && unit < 0xDC00

def isTrailing (unit : Nat) : Bool := 0xDC00 ≤ unit && unit < 0xE000

/-- Joins surrogate pairs. The units are given last first, and so are the characters of `joined` in
their final order; half a pair has no character. -/
def joinPairs (joined : List Char) : List Nat → Option (List Char)
  | [] => some joined
  | trailing :: leading :: rest =>
    if isTrailing trailing then
      if isLeading leading then
        let code := 0x10000 + (leading - 0xD800) * 0x400 + (trailing - 0xDC00)
        joinPairs (Char.ofNat code :: joined) rest
      else none
    else if isLeading trailing then none
    else joinPairs (Char.ofNat trailing :: joined) (leading :: rest)
  | [unit] => if isLeading unit || isTrailing unit then none else some (Char.ofNat unit :: joined)

/-- The text of a string behind its opening quote, or none if it is torn. -/
def string? (input : List Char) : Option (Option String × List Char) := do
  let (units, rest) ← units? [] input
  return ((joinPairs [] units).map String.ofList, rest)

def word? (word : List Char) (input : List Char) : Option (List Char) :=
  match word, input with
  | [], rest => some rest
  | expected :: word, c :: rest => if expected = c then word? word rest else none
  | _ :: _, [] => none

mutual
/-- Reads a value; `fuel` bounds the number of calls that are nested. -/
def value? : Nat → List Char → Option (Json × List Char)
  | 0, _ => none
  | fuel + 1, input =>
    match skipSpace input with
    | 'n' :: rest => (word? ['u', 'l', 'l'] rest).map (.null, ·)
    | 't' :: rest => (word? ['r', 'u', 'e'] rest).map (.bool true, ·)
    | 'f' :: rest => (word? ['a', 'l', 's', 'e'] rest).map (.bool false, ·)
    | '"' :: rest => (string? rest).map fun (content, rest) => (content.elim .torn .text, rest)
    | '[' :: rest =>
      match skipSpace rest with
      | ']' :: rest => some (.array [], rest)
      | rest => (items? fuel [] rest).map fun (read, rest) => (.array read, rest)
    | '{' :: rest =>
      match skipSpace rest with
      | '}' :: rest => some (.object [], rest)
      | rest => (fields? fuel (some []) rest).map fun (read, rest) => (read.elim .torn .object, rest)
    | rest => (number? rest).map fun (read, rest) => (.number read, rest)

/-- Reads the items of an array, the first of which must be there. -/
def items? : Nat → List Json → List Char → Option (List Json × List Char)
  | 0, _, _ => none
  | fuel + 1, read, input =>
    match value? fuel input with
    | none => none
    | some (item, rest) =>
      match skipSpace rest with
      | ',' :: rest => items? fuel (item :: read) rest
      | ']' :: rest => some ((item :: read).reverse, rest)
      | _ => none

/-- Reads the fields of an object, the first of which must be there. They are none if the name of one
of them is torn. -/
def fields? : Nat → Option (List (String × Json)) → List Char →
    Option (Option (List (String × Json)) × List Char)
  | 0, _, _ => none
  | fuel + 1, read, input =>
    match skipSpace input with
    | '"' :: rest =>
      match string? rest with
      | none => none
      | some (name, rest) =>
        match skipSpace rest with
        | ':' :: rest =>
          match value? fuel rest with
          | none => none
          | some (value, rest) =>
            let read := do return (← name, value) :: (← read)
            match skipSpace rest with
            | ',' :: rest => fields? fuel read rest
            | '}' :: rest => some (read.map List.reverse, rest)
            | _ => none
        | _ => none
    | _ => none
end

end Reader

/-- Reads a text that holds one value. Each call consumes a character, so there are no more nested
calls than characters. -/
def parse? (text : String) : Option Json :=
  let input := text.toList
  match Reader.value? (2 * input.length + 2) input with
  | some (value, rest) => if (Reader.skipSpace rest).isEmpty then some value else none
  | none => none

/-- Reads a text that holds one storable value, as it is kept. -/
def parseStorable? (text : String) : Option Json :=
  (parse? text).bind fun value => if value.isStorable then some value.kept else none

end Readings.Json
