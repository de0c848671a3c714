import Mathlib.Data.List.Chain
import Readings.Diagnosis.ParseError
import Readings.Proofs.Excerpts
import Readings.Proofs.LaidOutWords
import Readings.Proofs.Recognition

/-! Where an error points to in tokens that are laid out again. Tokens that do not overlap and are as long
as their texts are found at their offsets, so the span of a token that was not expected cuts its text out
of the laid out text: counted in characters in every excerpt, and counted in bytes after the rewriting. -/

namespace Readings

namespace Text

/-- A piece of a text behind `start` characters. -/
def HasAt (text : String) (start : Nat) (piece : String) : Prop :=
  ∃ front back, text = front ++ piece ++ back ∧ front.length = start

/-- A range of bytes starts and stops between characters and has the bytes of a piece. -/
structure CutsOut (text : String) (bytes : TextRange) (piece : String) : Prop where
  opens : (String.Pos.Raw.mk bytes.start).IsValid text
  closes : (String.Pos.Raw.mk bytes.stop).IsValid text
  cut : text.toByteArray.extract bytes.start bytes.stop = piece.toByteArray

variable {text piece : String} {start : Nat}

theorem HasAt.stop_le (found : HasAt text start piece) : start + piece.length ≤ text.length := by
  obtain ⟨front, back, rfl, rfl⟩ := found
  simp

theorem HasAt.extract_eq (found : HasAt text start piece) :
    text.toList.extract start (start + piece.length) = piece.toList := by
  obtain ⟨front, back, rfl, rfl⟩ := found
  simp [List.extract_eq_take_drop, ← String.length_toList]

theorem sum_utf8Size (text : String) :
    (text.toList.map Char.utf8Size).foldr (· + ·) 0 = text.utf8ByteSize := by
  obtain ⟨letters, rfl⟩ : ∃ letters, text = String.ofList letters := ⟨_, String.ofList_toList.symm⟩
  induction letters with
  | nil => rfl
  | cons c letters ih =>
    rw [String.toList_ofList] at ih ⊢
    rw [List.map_cons, List.foldr_cons, ih, String.ofList_cons, String.utf8ByteSize_append,
      String.utf8ByteSize_singleton]

theorem byteOffset_behind (front back : String) (short : (front ++ back).utf8ByteSize < offsetBound) :
    ParseError.byteOffset (front ++ back).toList front.length = front.utf8ByteSize := by
  rw [String.utf8ByteSize_append] at short
  rw [ParseError.byteOffset, String.toList_append, ← String.length_toList, List.take_left, sum_utf8Size]
  omega

theorem isValid_behind (front back : String) :
    (String.Pos.Raw.mk front.utf8ByteSize).IsValid (front ++ back) :=
  String.Pos.Raw.isValid_iff_exists_append.mpr ⟨front, back, rfl, rfl⟩

theorem HasAt.cutsOut {range : TextRange} (found : HasAt text range.start piece)
    (exact : range.stop = range.start + piece.length) (short : text.utf8ByteSize < offsetBound) :
    CutsOut text (ParseError.byteRange text.toList range) piece := by
  obtain ⟨front, back, rfl, start⟩ := found
  have opens := byteOffset_behind front (piece ++ back) (by rwa [← String.append_assoc])
  have closes := byteOffset_behind (front ++ piece) back short
  rw [start, ← String.append_assoc] at opens
  rw [String.length_append, start, ← exact, String.utf8ByteSize_append] at closes
  have bytes : ParseError.byteRange (front ++ piece ++ back).toList range =
      ⟨front.utf8ByteSize, front.utf8ByteSize + piece.utf8ByteSize, Nat.le_add_right _ _⟩ := by
    rw [ParseError.byteRange, opens, closes, TextRange.between, dif_pos]
  rw [bytes]
  refine ⟨?_, ?_, ?_⟩
  · rw [String.append_assoc]
    exact isValid_behind front (piece ++ back)
  · have joined := isValid_behind (front ++ piece) back
    rwa [String.utf8ByteSize_append] at joined
  · calc
      _ = (piece ++ back).toByteArray.extract 0 piece.utf8ByteSize := by
        rw [String.append_assoc, String.toByteArray_append]
        exact ByteArray.extract_append_size_add' (i := 0) String.size_toByteArray.symm
      _ = piece.toByteArray := by
        rw [String.toByteArray_append]
        exact ByteArray.extract_append_eq_left String.size_toByteArray.symm

end Text

namespace Token

/-- Tokens whose spans do not overlap and are as long as their texts. -/
structure AreLaidOut (tokens : List Token) : Prop where
  apart : tokens.IsChain fun first second => first.span.stop ≤ second.span.start
  exact : ∀ token ∈ tokens, token.span.length = token.text.length

theorem AreLaidOut.stop_eq {tokens : List Token} (laidOut : AreLaidOut tokens) {token : Token}
    (member : token ∈ tokens) : token.span.stop = token.span.start + token.text.length := by
  have length := laidOut.exact token member
  have ordered := token.span.ordered
  rw [TextRange.length] at length
  omega

/-- The induction is on the tokens that are left, with `length` characters laid out in front of them. -/
theorem AreLaidOut.hasAt_from {tokens : List Token} (laidOut : AreLaidOut tokens) {length : Nat}
    (room : ∀ token ∈ tokens.head?, length ≤ token.span.start) {token : Token} (member : token ∈ tokens) :
    ∃ front back, String.ofList (layOutFrom length tokens) = front ++ token.text ++ back ∧
      length + front.length = token.span.start := by
  induction tokens generalizing length with
  | nil => cases member
  | cons first tokens ih =>
    have start := room first rfl
    have stop := laidOut.stop_eq List.mem_cons_self
    obtain ⟨next, apart⟩ := List.isChain_cons.mp laidOut.apart
    have rest : AreLaidOut tokens := ⟨apart, fun token member => laidOut.exact token (.tail _ member)⟩
    rw [layOutFrom_cons start, String.ofList_append, String.ofList_append, String.ofList_toList, ← stop]
    rcases List.mem_cons.mp member with rfl | later
    · refine ⟨_, _, rfl, ?_⟩
      simp only [String.length_ofList, List.length_replicate]
      omega
    · obtain ⟨front, back, shown, place⟩ := ih rest next later
      rw [shown]
      refine ⟨String.ofList (List.replicate (first.span.start - length) ' ') ++ first.text ++ front, back,
        by simp only [String.append_assoc], ?_⟩
      simp only [String.length_append, String.length_ofList, List.length_replicate]
      omega

theorem AreLaidOut.hasAt {tokens : List Token} (laidOut : AreLaidOut tokens) {token : Token}
    (member : token ∈ tokens) : Text.HasAt (layOut tokens) token.span.start token.text := by
  obtain ⟨front, back, shown, start⟩ := laidOut.hasAt_from (fun _ _ => Nat.zero_le _) member
  exact ⟨front, back, shown, by omega⟩

end Token

theorem Chart.token_of_error {chart : Chart} {tokens : List Token} {span : TextRange} {position : Nat}
    {found : String} {expected : List String}
    (error : chart.error? tokens.toArray = some (.unexpectedToken span position found expected)) :
    ∃ token ∈ tokens, token.span = span ∧ token.text = found := by
  simp only [Chart.error?] at error
  split at error
  next => cases error
  next => cases error
  next place _ _ =>
    split at error
    next token here =>
      cases error
      exact ⟨token, by simpa using Array.mem_of_getElem? here, rfl, rfl⟩
    next => cases error

/-- Laid out again, every token is found at its span; and where one was not expected, every excerpt at the
error shows its text, and the error that counts bytes has the bytes of its text. -/
theorem offendingWord_exact (grammar : Grammar) (config : ChartConfig) {tokens : List Token}
    (laidOut : Token.AreLaidOut tokens) :
    (∀ token ∈ tokens, (Token.layOut tokens).toList.extract token.span.start token.span.stop =
      token.text.toList) ∧
      ∀ span position found expected,
        (Chart.build grammar config tokens.toArray).error? tokens.toArray =
          some (.unexpectedToken span position found expected) →
        (∀ width, span.stop + width < countBound → ∃ piece,
          excerpt (Token.layOut tokens).toList span width = .ok (some piece) ∧
            piece.inside = found.toList) ∧
        ((Token.layOut tokens).utf8ByteSize < offsetBound → ∃ bytes,
          (ParseError.unexpectedToken span position found expected).withByteSpan (Token.layOut tokens) =
            .unexpectedToken bytes position found expected ∧
          Text.CutsOut (Token.layOut tokens) bytes found) := by
  refine ⟨fun token member => ?_, fun span position found expected error => ?_⟩
  · rw [laidOut.stop_eq member]
    exact (laidOut.hasAt member).extract_eq
  · obtain ⟨token, member, rfl, rfl⟩ := Chart.token_of_error error
    have stop := laidOut.stop_eq member
    have found := laidOut.hasAt member
    refine ⟨fun width room => ?_, fun short => ⟨_, rfl, found.cutsOut stop short⟩⟩
    have within : token.span.stop ≤ (Token.layOut tokens).toList.length := by
      rw [stop, String.length_toList]
      exact found.stop_le
    obtain ⟨piece, shown, around⟩ := excerpt_some within room
    exact ⟨piece, shown, by rw [around.inside, stop, found.extract_eq]⟩

/-- A word with a wide letter, one without letters and, after a gap, one that cannot follow. -/
def wideWords : List Token :=
  [⟨"é", "one", [], .between 1 2, false⟩, ⟨"", "plus", [], .empty 3, false⟩,
    ⟨"ßß", "plus", [], .between 5 7, false⟩]

theorem wideWords_laidOut :
    Token.AreLaidOut wideWords ∧
      (Chart.build sums {} wideWords.toArray).error? wideWords.toArray =
        some (.unexpectedToken (.between 5 7) 2 "ßß" ["<one>"]) ∧
      (∃ piece, excerpt (Token.layOut wideWords).toList (.between 5 7) 1 = .ok (some piece) ∧
        piece.inside = "ßß".toList) ∧
      ∃ bytes, (ParseError.unexpectedToken (.between 5 7) 2 "ßß" ["<one>"]).withByteSpan
          (Token.layOut wideWords) = .unexpectedToken bytes 2 "ßß" ["<one>"] ∧
        Text.CutsOut (Token.layOut wideWords) bytes "ßß" := by
  have laidOut : Token.AreLaidOut wideWords := ⟨by decide +kernel, by decide +kernel⟩
  have error : (Chart.build sums {} wideWords.toArray).error? wideWords.toArray =
      some (.unexpectedToken (.between 5 7) 2 "ßß" ["<one>"]) := by decide +kernel
  obtain ⟨shown, rewritten⟩ := (offendingWord_exact sums {} laidOut).2 _ _ _ _ error
  exact ⟨laidOut, error, shown 1 (by decide +kernel), rewritten (by decide +kernel)⟩

end Readings
