import Readings.Decimal.Binary

/-! Doubles with a fixed number of decimal places. The exact binary value is rounded, and a tie goes
to the even neighbour. -/

namespace Readings.Decimal

/-- `numerator / denominator` rounded to a whole number, a tie to the even one. -/
def roundDiv (numerator denominator : Nat) : Nat :=
  let quotient := numerator / denominator
  let twice := 2 * (numerator % denominator)
  if twice < denominator then quotient
  else if denominator < twice then quotient + 1
  else if quotient % 2 = 0 then quotient else quotient + 1

def padLeft (width : Nat) (fill : Char) (text : List Char) : List Char :=
  List.replicate (width - text.length) fill ++ text

/-- A whole number of units of the last place, written with `places` digits after the point. -/
def placePoint (places units : Nat) : List Char :=
  let digits := padLeft (places + 1) '0' (Nat.toDigits 10 units)
  let whole := digits.take (digits.length - places)
  if places = 0 then whole else whole ++ '.' :: digits.drop (digits.length - places)

/-- A double with `places` decimals. A negative zero, or a negative number that rounds to zero, keeps
its sign. -/
def fixed (places : Nat) (x : Float) : String :=
  if x.isNaN then "NaN"
  else
    let sign := if isNegative x then ['-'] else []
    let magnitude :=
      if x.isInf then ['i', 'n', 'f']
      else
        let exact := Binary.ofFloat x
        placePoint places (roundDiv (exact.value * tenTo places) exact.scale)
    String.ofList (sign ++ magnitude)

end Readings.Decimal
