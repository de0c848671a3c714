import Readings.Edit.Fingerprint

/-! Differences between two token lists: what they share at their ends, and the pieces between. -/

namespace Readings

structure TokenDiff where
  leading : Nat
  /-- How many tokens are shared at the end, apart from those. -/
  trailing : Nat
  /-- The piece of the previous list that is gone. -/
  removed : TokenSpan
  /-- The piece of the current list that stands in its place. -/
  inserted : TokenSpan
deriving Repr, DecidableEq, Inhabited

namespace TokenDiff

def between (previous current : List Fingerprint) : TokenDiff :=
  let leading := commonPrefix previous current
  let trailing := commonSuffix previous current leading
  { leading, trailing
    removed := ⟨leading, previous.length - trailing⟩
    inserted := ⟨leading, current.length - trailing⟩ }

def isIdentical (diff : TokenDiff) : Bool := diff.removed.isEmpty && diff.inserted.isEmpty

def unchanged (diff : TokenDiff) : Nat := diff.leading + diff.trailing

end TokenDiff

end Readings
