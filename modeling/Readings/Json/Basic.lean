import Readings.Decimal.Shortest

/-! JSON values. A number keeps its sign and its decimal digits, and whether it was written without
fraction and exponent; integers and doubles are read off it. The fields of an object stay in the
order in which they were written, duplicates included. -/

namespace Readings

/-- The number `± digits · 10 ^ exponent`. -/
structure Json.Number where
  negative : Bool
  digits : Nat
  exponent : Int
  integral : Bool
deriving Repr, DecidableEq

inductive Json where
  | null
  | bool (value : Bool)
  | number (value : Json.Number)
  | text (value : String)
  /-- A string with half a surrogate pair in it, or an object with such a field name: well formed,
  but not to be read. -/
  | torn
  | array (items : List Json)
  | object (fields : List (String × Json))
deriving Repr, BEq, Inhabited

namespace Json

namespace Number

/-- A double as a number; the infinities and the values that are no number are written as null. -/
def ofFloat (x : Float) : Number :=
  let exact := Decimal.Binary.ofFloat x
  if exact.value = 0 then ⟨Decimal.isNegative x, 0, 0, false⟩
  else
    let shortest := exact.shortest
    ⟨Decimal.isNegative x, shortest.digits, shortest.exponent, false⟩

/-- The nearest double; a number beyond all doubles has none. -/
def toFloat? (number : Number) : Option Float :=
  let magnitude := (Decimal.countDigits number.digits : Int) + number.exponent
  let absolute : Option Float :=
    if number.digits = 0 ∨ magnitude < -400 then some 0
    else if magnitude > 400 then none
    else
      let x := Float.ofScientific number.digits (number.exponent < 0) number.exponent.natAbs
      if x.isInf then none else some x
  absolute.map fun x => if number.negative then -x else x

/-- The whole number that was written as one; a negative zero is not. -/
def toInt? (number : Number) : Option Int :=
  if number.integral && !(number.negative && number.digits = 0) then
    some (if number.negative then -(number.digits : Int) else number.digits)
  else none

/-- The number as it is kept: a whole number that fits 64 bits, or else the nearest double. -/
def kept (number : Number) : Number :=
  if number.toInt?.any fun i => Int64.minValue.toInt ≤ i ∧ i < UInt64.size then number
  else (number.toFloat?.map ofFloat).getD number

end Number

def nat (n : Nat) : Json := .number ⟨false, n, 0, true⟩

def int (i : Int) : Json := .number ⟨i < 0, i.natAbs, 0, true⟩

/-- Neither an infinity nor a value that is no number can be written. -/
def float (x : Float) : Json :=
  if x.isNaN || x.isInf then .null else .number (Number.ofFloat x)

def optional {α : Type} (write : α → Json) (value : Option α) : Json :=
  match value with
  | some value => write value
  | none => .null

def texts (values : List String) : Json := .array (values.map .text)

mutual
/-- The value as it is kept: of repeated fields only the last one, and numbers as they are kept. -/
def kept : Json → Json
  | .number value => .number value.kept
  | .array items => .array (keptItems items)
  | .object fields => .object (keptEntries fields)
  | value => value
def keptItems : List Json → List Json
  | [] => []
  | value :: values => kept value :: keptItems values
def keptEntries : List (String × Json) → List (String × Json)
  | [] => []
  | (name, value) :: fields =>
    if fields.any (·.1 == name) then keptEntries fields
    else (name, kept value) :: keptEntries fields
end

mutual
/-- Leaves out the fields that are null, at every depth. -/
def withoutNulls : Json → Json
  | .array items => .array (withoutNullsItems items)
  | .object fields => .object (withoutNullsEntries fields)
  | value => value
def withoutNullsItems : List Json → List Json
  | [] => []
  | value :: values => withoutNulls value :: withoutNullsItems values
def withoutNullsEntries : List (String × Json) → List (String × Json)
  | [] => []
  | (_, .null) :: fields => withoutNullsEntries fields
  | (name, value) :: fields => (name, withoutNulls value) :: withoutNullsEntries fields
end

mutual
def depth : Json → Nat
  | .array items => depthItems items + 1
  | .object fields => depthEntries fields + 1
  | _ => 0
def depthItems : List Json → Nat
  | [] => 0
  | value :: values => max (depth value) (depthItems values)
def depthEntries : List (String × Json) → Nat
  | [] => 0
  | (_, value) :: fields => max (depth value) (depthEntries fields)
end

mutual
/-- Every string in it is a text and every number has a nearest double. -/
def isFaithful : Json → Bool
  | .torn => false
  | .number value => value.toFloat?.isSome
  | .array items => isFaithfulItems items
  | .object fields => isFaithfulEntries fields
  | _ => true
def isFaithfulItems : List Json → Bool
  | [] => true
  | value :: values => isFaithful value && isFaithfulItems values
def isFaithfulEntries : List (String × Json) → Bool
  | [] => true
  | (_, value) :: fields => isFaithful value && isFaithfulEntries fields
end

/-- Arrays and objects in a value that is read whole are nested less deep than this. -/
def depthBound : Nat := 128

/-- A value that can be kept whole: faithful, and not nested too deep. -/
def isStorable (value : Json) : Bool := value.isFaithful && decide (value.depth < depthBound)

end Json

end Readings
