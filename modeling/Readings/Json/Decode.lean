import Readings.Json.Basic

/-! Reading typed values off JSON. A record is written as an object, whose unknown fields are ignored
and whose known fields may not be repeated, or as an array of its fields in their order. -/

namespace Readings.Json

def toNat? (bound : Nat) : Json → Option Nat
  | .number value =>
    match value.toInt? with
    | some (.ofNat n) => if n < bound then some n else none
    | _ => none
  | _ => none

/-- A number that counts things or names a token position. -/
def toCount? : Json → Option Nat := toNat? UInt64.size

def toWord? : Json → Option Nat := toNat? UInt32.size

def toSigned? : Json → Option Int
  | .number value =>
    match value.toInt? with
    | some i => if Int32.minValue.toInt ≤ i ∧ i ≤ Int32.maxValue.toInt then some i else none
    | none => none
  | _ => none

def toFloat? : Json → Option Float
  | .number value => value.toFloat?
  | _ => none

def toBool? : Json → Option Bool
  | .bool value => some value
  | _ => none

def toText? : Json → Option String
  | .text value => some value
  | _ => none

def toItems? : Json → Option (List Json)
  | .array items => some items
  | _ => none

def toFields? : Json → Option (List (String × Json))
  | .object fields => some fields
  | _ => none

def toList? {α : Type} (read : Json → Option α) (value : Json) : Option (List α) :=
  value.toItems?.bind (·.mapM read)

def toOption? {α : Type} (read : Json → Option α) : Json → Option (Option α)
  | .null => some none
  | value => (read value).map some

/-- The values of the fields with the given names; a field that is not there has none. -/
def record? (names : List String) : Json → Option (List (Option Json))
  | .object fields =>
    names.mapM fun name =>
      match fields.filter (·.1 == name) with
      | [] => some none
      | [field] => some (some field.2)
      | _ => none
  | .array items =>
    if items.length ≤ names.length then
      some (items.map some ++ List.replicate (names.length - items.length) none)
    else none
  | _ => none

/-- The values of the fields of a record that has no others. -/
def closedRecord? (names : List String) (value : Json) : Option (List (Option Json)) :=
  match value with
  | .object fields => if fields.all (names.contains ·.1) then value.record? names else none
  | _ => value.record? names

def required? {α : Type} (read : Json → Option α) (field : Option Json) : Option α :=
  field.bind read

def fieldOr? {α : Type} (default : α) (read : Json → Option α) : Option Json → Option α
  | none => some default
  | some value => read value

/-- A field of a record that may be null. An object may leave it out, an array may not. -/
def nullable? {α : Type} (read : Json → Option α) (record : Json) :
    Option Json → Option (Option α)
  | some value => value.toOption? read
  | none => match record with
    | .array _ => none
    | _ => some none

/-- The name and the value of a choice: an object with exactly one field. -/
def choice? : Json → Option (String × Json)
  | .object [field] => some field
  | _ => none

/-- The field of an object; null counts as absent. -/
def get? (name : String) : Json → Option Json
  | .object fields =>
    match fields.find? (·.1 == name) with
    | some (_, .null) => none
    | some (_, value) => some value
    | none => none
  | _ => none

end Readings.Json
