import Readings.Token

/-! Fingerprints of tokens: all that a parse can see of a token, which leaves out its place in the
request, and how much two token lists have in common. -/

namespace Readings

structure Fingerprint where
  text : String
  kind : String
  /-- In ascending order, each once. -/
  tags : List String
  merged : Bool
deriving Repr, DecidableEq, Inhabited, Hashable

namespace Fingerprint

def ofToken (token : Token) : Fingerprint :=
  { text := token.normalizedText
    kind := token.kind
    tags := (token.tags.mergeSort fun a b => decide (a ≤ b)).eraseReps
    merged := token.merged }

def ofTokens (tokens : List Token) : List Fingerprint := tokens.map ofToken

end Fingerprint

def commonPrefix : List Fingerprint → List Fingerprint → Nat
  | x :: xs, y :: ys => if x = y then commonPrefix xs ys + 1 else 0
  | _, _ => 0

/-- The length of the longest common end that leaves out the first `skip` tokens of either list. -/
def commonSuffix (a b : List Fingerprint) (skip : Nat) : Nat :=
  min (commonPrefix a.reverse b.reverse) (min a.length b.length - skip)

end Readings
