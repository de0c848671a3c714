import Readings.Json.Decode
import Readings.Token

/-! Lexicons: the kinds and tags of single words. -/

namespace Readings

def Token.WordClass.unknown : Token.WordClass := { kind := "WORD", tags := [] }

structure Lexicon where
  entries : List (String × Token.WordClass)

namespace Lexicon

def empty : Lexicon := ⟨[]⟩

/-- The class of a word, which has to be written as in the lexicon. -/
def classOf (lexicon : Lexicon) (word : String) : Token.WordClass :=
  (lexicon.entries.lookup word).getD .unknown

/-- The class in an entry; what is left out or is no text is as for an unknown word. -/
def readClass (entry : Json) : Token.WordClass :=
  let unknown := Token.WordClass.unknown
  { kind := ((entry.get? "kind").bind Json.toText?).getD unknown.kind
    tags := (((entry.get? "tags").bind Json.toItems?).map (·.filterMap Json.toText?)).getD unknown.tags }

def ofJson (value : Json) : Lexicon :=
  ⟨(value.toFields?.getD []).map fun (word, entry) => (word, readClass entry)⟩

end Lexicon

end Readings
