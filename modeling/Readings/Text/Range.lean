import Readings.Fault

/-! Half-open ranges of character offsets in a request. Offsets are kept in 32 bits, so a sum of
two of them may have no answer. -/

namespace Readings

def offsetBound : Nat := UInt32.size

/-- The characters from `start` up to, but not including, `stop`. -/
structure TextRange where
  start : Nat
  stop : Nat
  ordered : start ≤ stop := by omega
deriving Repr, DecidableEq

namespace TextRange

instance : Inhabited TextRange := ⟨⟨0, 0, Nat.le_refl 0⟩⟩

def between (a b : Nat) : TextRange :=
  if inOrder : a ≤ b then ⟨a, b, inOrder⟩ else ⟨b, a, by omega⟩

def empty (offset : Nat) : TextRange := ⟨offset, offset, Nat.le_refl offset⟩

def sumOffsets (a b : Nat) : Except Fault Nat :=
  if a + b < offsetBound then .ok (a + b) else .error .outOfRange

def ofLength (start length : Nat) : Except Fault TextRange := do
  let stop ← sumOffsets start length
  return between start stop

def length (range : TextRange) : Nat := range.stop - range.start

def isEmpty (range : TextRange) : Bool := range.start == range.stop

def contains (range : TextRange) (offset : Nat) : Bool :=
  range.start ≤ offset && offset < range.stop

def containsRange (outer inner : TextRange) : Bool :=
  outer.start ≤ inner.start && inner.stop ≤ outer.stop

def cover (a b : TextRange) : TextRange := between (min a.start b.start) (max a.stop b.stop)

def render (range : TextRange) : String := toString range.start ++ ".." ++ toString range.stop

end TextRange

end Readings
