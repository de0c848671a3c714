/-! The exact value of a double: a sign and a fraction of natural numbers, together with the interval
of reals that round to it. Decimal texts are chosen from these alone, so no step of printing rounds
twice. The bits give the total order of doubles, too. -/

namespace Readings.Decimal

/-- A non-negative double `value / scale`, with the ends of the interval of reals that are rounded to
it: from `low / scale` to `high / scale`. An even significand owns the ends of its interval. -/
structure Binary where
  value : Nat
  low : Nat
  high : Nat
  scale : Nat
  ownsEnds : Bool
deriving Repr, DecidableEq

/-- The magnitude of a finite double. The gap to the double below is half as wide when the
significand is the least of its binade. -/
def Binary.ofFloat (x : Float) : Binary :=
  let bits := x.toBits
  let biased := ((bits >>> 52) &&& 0x7FF).toNat
  let fraction := (bits &&& 0xFFFFFFFFFFFFF).toNat
  let significand := if biased = 0 then fraction else 1 <<< 52 + fraction
  let exponent : Int := if biased = 0 then -1074 else (biased : Int) - 1075
  let quarter := exponent - 2
  let up := 1 <<< quarter.toNat
  { value := 4 * significand * up
    low := (4 * significand - (if fraction = 0 && biased > 1 then 1 else 2)) * up
    high := (4 * significand + 2) * up
    scale := 1 <<< (-quarter).toNat
    ownsEnds := significand % 2 = 0 }

def tenTo (exponent : Nat) : Nat := Nat.pow 10 exponent

def isNegative (x : Float) : Bool := x.toBits >>> 63 == 1

/-- Doubles are ordered as these numbers are, so that a negative zero comes before zero. -/
def orderKey (x : Float) : Int :=
  let magnitude : Int := (x.toBits &&& 0x7FFFFFFFFFFFFFFF).toNat
  if isNegative x then -magnitude - 1 else magnitude

def atMost (x y : Float) : Bool := decide (orderKey x ≤ orderKey y)

end Readings.Decimal
