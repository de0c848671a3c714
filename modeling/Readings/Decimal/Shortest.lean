import Readings.Decimal.Binary

/-! The fewest decimal digits that read back as a given double, and of those the nearest to it; a tie
goes to the even digit. -/

namespace Readings.Decimal

structure Digits where
  digits : Nat
  exponent : Int
deriving Repr, DecidableEq

def countDigits (n : Nat) : Nat := (Nat.toDigits 10 n).length

/-- The position of the leading digit: `value / scale < 10 ^ p`, and `10 ^ (p - 1)` is not above it.
No double that is not zero is below `10 ^ -400`. -/
def Binary.magnitude (x : Binary) : Int :=
  (countDigits (x.value * tenTo 400 / x.scale) : Int) - 400

/-- Whether `digits · 10 ^ exponent` lies in the interval that rounds to the double. -/
def Binary.readsBack (x : Binary) (candidate : Digits) : Bool :=
  let point := candidate.digits * tenTo candidate.exponent.toNat * x.scale
  let low := x.low * tenTo (-candidate.exponent).toNat
  let high := x.high * tenTo (-candidate.exponent).toNat
  if x.ownsEnds then low ≤ point && point ≤ high else low < point && point < high

/-- The two neighbours of the double among the multiples of `10 ^ exponent`, the lower one first. -/
def Binary.neighbours (x : Binary) (exponent : Int) : Digits × Digits :=
  let below := x.value * tenTo (-exponent).toNat / (x.scale * tenTo exponent.toNat)
  (⟨below, exponent⟩, ⟨below + 1, exponent⟩)

/-- Which neighbour is nearer; at equal distance the even one. -/
def Binary.nearer (x : Binary) (exponent : Int) : Digits :=
  let (below, above) := x.neighbours exponent
  let middle := (below.digits + above.digits) * tenTo exponent.toNat * x.scale
  let value := 2 * x.value * tenTo (-exponent).toNat
  if value < middle then below
  else if middle < value then above
  else if below.digits % 2 = 0 then below else above

/-- The multiple of `10 ^ exponent` that reads back as the double and is nearest to it, if any. -/
def Binary.onGrid? (x : Binary) (exponent : Int) : Option Digits :=
  let (below, above) := x.neighbours exponent
  match x.readsBack below, x.readsBack above with
  | true, true => some (x.nearer exponent)
  | true, false => some below
  | false, true => some above
  | false, false => none

def Digits.strip : Nat → Digits → Digits
  | 0, d => d
  | fuel + 1, d =>
    if d.digits ≠ 0 ∧ d.digits % 10 = 0 then Digits.strip fuel ⟨d.digits / 10, d.exponent + 1⟩ else d

/-- The shortest digits of a double that is not zero. Seventeen digits always suffice. -/
def Binary.shortest (x : Binary) : Digits :=
  let magnitude := x.magnitude
  let found := (List.range 17).findSome? fun n => x.onGrid? (magnitude - (n + 1 : Nat))
  (found.getD (x.nearer (magnitude - 17))).strip 20

end Readings.Decimal
