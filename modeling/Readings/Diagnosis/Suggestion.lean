import Readings.Decimal.Binary
import Readings.Text.Characters
import Readings.Text.Distance

/-! Words that may have been meant instead of one that was not understood. Words are compared in lower
case. -/

namespace Readings

def wordSimilarity (a b : String) : Float :=
  Text.similarity (Text.lower a.toList) (Text.lower b.toList)

def suggestionThreshold : Float := 0.6

def candidateThreshold : Float := 0.4

/-- The first of the most similar words, if they are similar enough. -/
def closestWord? (actual : String) (expected : List String) : Option String :=
  let best := expected.foldl
    (fun (best : Option (String × Float)) word =>
      let similarity := wordSimilarity actual word
      if similarity < suggestionThreshold then best
      else
        match best with
        | none => some (word, similarity)
        | some (_, known) => if similarity ≤ known then best else some (word, similarity))
    none
  best.map (·.1)

def similarWords (actual : String) (expected : List String) (count : Nat) : List String :=
  let rated := expected.map fun word => (word, wordSimilarity actual word)
  let similar := rated.filter fun (_, similarity) => candidateThreshold ≤ similarity
  let sorted := similar.mergeSort fun a b => Decimal.atMost b.2 a.2
  (sorted.take count).map (·.1)

end Readings
