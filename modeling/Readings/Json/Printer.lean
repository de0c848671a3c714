import Readings.Json.Basic

/-! Writing JSON text. Fields are written in the order of their names, in one line or indented by two
spaces a level. Doubles keep the fewest digits that read back, with a point or an exponent. -/

namespace Readings.Json

/-- The places that a number may take before its point, and the zeros it may have behind it, when it
is written without exponent. -/
def plainDigits : Int := 16
def plainZeros : Int := 5

/-- The decimal digits of a number that is not written as a whole one. -/
def layOutDouble (digits : Nat) (exponent : Int) : List Char :=
  let stripped := (Decimal.Digits.mk digits exponent).strip (Decimal.countDigits digits)
  let text := Nat.toDigits 10 stripped.digits
  let count : Int := text.length
  let point := count + stripped.exponent
  if digits = 0 then ['0', '.', '0']
  else if 0 ≤ stripped.exponent && point ≤ plainDigits then
    text ++ List.replicate stripped.exponent.toNat '0' ++ ['.', '0']
  else if 0 < point && point ≤ plainDigits then
    text.take point.toNat ++ '.' :: text.drop point.toNat
  else if -plainZeros < point && point ≤ 0 then
    ['0', '.'] ++ List.replicate (-point).toNat '0' ++ text
  else
    text.take 1 ++ (if count = 1 then [] else '.' :: text.drop 1) ++
      ['e', if 0 < point then '+' else '-'] ++ Nat.toDigits 10 (point - 1).natAbs

def renderNumber (number : Number) : String :=
  let body :=
    if number.integral then Nat.toDigits 10 number.digits
    else layOutDouble number.digits number.exponent
  String.ofList (if number.negative then '-' :: body else body)

def hexPair (code : Nat) : List Char :=
  let digits := Nat.toDigits 16 code
  List.replicate (2 - digits.length) '0' ++ digits

def renderChar (c : Char) : List Char :=
  match c with
  | '"' => ['\\', '"']
  | '\\' => ['\\', '\\']
  | '\x08' => ['\\', 'b']
  | '\x0c' => ['\\', 'f']
  | '\n' => ['\\', 'n']
  | '\r' => ['\\', 'r']
  | '\t' => ['\\', 't']
  | _ => if c.toNat < 0x20 then ['\\', 'u', '0', '0'] ++ hexPair c.toNat else [c]

def renderText (text : String) : String :=
  String.ofList (['"'] ++ text.toList.flatMap renderChar ++ ['"'])

def sortFields (fields : List (String × Json)) : List (String × Json) :=
  fields.mergeSort fun a b => a.1 ≤ b.1

mutual
def sorted : Json → Json
  | .array items => .array (sortedItems items)
  | .object fields => .object (sortFields (sortedEntries fields))
  | value => value
def sortedItems : List Json → List Json
  | [] => []
  | value :: values => sorted value :: sortedItems values
def sortedEntries : List (String × Json) → List (String × Json)
  | [] => []
  | (name, value) :: fields => (name, sorted value) :: sortedEntries fields
end

def renderScalar : Json → String
  | .null => "null"
  | .bool true => "true"
  | .bool false => "false"
  | .number value => renderNumber value
  | .text value => renderText value
  | _ => "null"

mutual
def writeCompact (out : String) : Json → String
  | .array [] => out ++ "[]"
  | .array (item :: items) => writeCompactItems (writeCompact (out ++ "[") item) items ++ "]"
  | .object [] => out ++ "\x7b\x7d"
  | .object ((name, value) :: fields) =>
    writeCompactEntries (writeCompact (out ++ "\x7b" ++ renderText name ++ ":") value) fields ++ "\x7d"
  | value => out ++ renderScalar value
def writeCompactItems (out : String) : List Json → String
  | [] => out
  | value :: values => writeCompactItems (writeCompact (out ++ ",") value) values
def writeCompactEntries (out : String) : List (String × Json) → String
  | [] => out
  | (name, value) :: fields =>
    writeCompactEntries (writeCompact (out ++ "," ++ renderText name ++ ":") value) fields
end

def lineBreak (level : Nat) : String := String.ofList ('\n' :: List.replicate (2 * level) ' ')

mutual
def writeIndented (level : Nat) (out : String) : Json → String
  | .array [] => out ++ "[]"
  | .array (item :: items) =>
    let out := writeIndented (level + 1) (out ++ "[" ++ lineBreak (level + 1)) item
    writeIndentedItems (level + 1) out items ++ lineBreak level ++ "]"
  | .object [] => out ++ "\x7b\x7d"
  | .object ((name, value) :: fields) =>
    let out := writeIndented (level + 1)
      (out ++ "\x7b" ++ lineBreak (level + 1) ++ renderText name ++ ": ") value
    writeIndentedEntries (level + 1) out fields ++ lineBreak level ++ "\x7d"
  | value => out ++ renderScalar value
def writeIndentedItems (level : Nat) (out : String) : List Json → String
  | [] => out
  | value :: values =>
    writeIndentedItems level (writeIndented level (out ++ "," ++ lineBreak level) value) values
def writeIndentedEntries (level : Nat) (out : String) : List (String × Json) → String
  | [] => out
  | (name, value) :: fields =>
    writeIndentedEntries level
      (writeIndented level (out ++ "," ++ lineBreak level ++ renderText name ++ ": ") value) fields
end

def render (value : Json) : String := writeCompact "" value.sorted

def renderIndented (value : Json) : String := writeIndented 0 "" value.sorted

end Readings.Json
