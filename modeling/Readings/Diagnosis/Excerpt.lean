import Readings.Text.Range

/-! Excerpts of a text around a range of its characters. -/

namespace Readings

structure Excerpt where
  before : List Char
  inside : List Char
  after : List Char
deriving Repr, DecidableEq

/-- The characters of a range and up to `width` characters on either side; a range that ends behind the
text has no excerpt. -/
def excerpt (source : List Char) (range : TextRange) (width : Nat) : Except Fault (Option Excerpt) :=
  if source.length < range.stop then .ok none
  else do
    let stop := min (← addCounts range.stop width) source.length
    let start := range.start - width
    return some
      { before := (source.drop start).take (range.start - start)
        inside := (source.drop range.start).take range.length
        after := (source.drop range.stop).take (stop - range.stop) }

end Readings
