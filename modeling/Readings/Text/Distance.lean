/-! Edit distance: the least number of characters to insert, delete or replace that turns one text into
another. It is computed row by row, where the row of a text holds its distances to all beginnings of
the other text. There are two rows, which change places: the one made last, and an older one whose
entries the next row is written over. -/

namespace Readings.Text

/-- Distances to the beginnings of a text, the empty one first. -/
abbrev DistanceRow (text : Array Char) : Type := Vector Nat (text.size + 1)

/-- Writes one entry of the row of a beginning that ends in `c`, from the entry in front of it and the
row of the beginning without `c`. -/
def writeEntry (text : Array Char) (c : Char) (row : DistanceRow text) (column : Nat)
    (inside : column < text.size) (next : DistanceRow text) : DistanceRow text :=
  let replaced := row[column] + if c = text[column] then 0 else 1
  next.set (column + 1) (min (min replaced (row[column + 1] + 1)) (next[column] + 1))

/-- The row of a beginning of some length that ends in `c`, written over an older row. -/
def nextRow (text : Array Char) (c : Char) (length : Nat) (row older : DistanceRow text) :
    DistanceRow text :=
  text.size.fold (writeEntry text c row) (older.set 0 length)

/-- The row of a whole text, of which the beginning of some length is read and `rest` is not. -/
def rowFrom (text : Array Char) (length : Nat) (row older : DistanceRow text) :
    List Char → DistanceRow text
  | [] => row
  | c :: rest => rowFrom text (length + 1) (nextRow text c (length + 1) row older) row rest

def editDistance (a b : List Char) : Nat :=
  let text := b.toArray
  (rowFrom text 0 (Vector.range _) (Vector.replicate _ 0) a)[text.size]

def similarity (a b : List Char) : Float :=
  let longest := max a.length b.length
  if longest = 0 then 1.0 else 1.0 - (editDistance a b).toFloat / longest.toFloat

end Readings.Text
