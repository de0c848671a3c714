import Readings.Diagnosis.Excerpt

/-! Excerpts of a text. Their three parts follow one another in it, and with enough width they are all of
it. The end of the wide range is summed up before it is cut at the end of the text, so an excerpt that is
wide beyond all counts has no answer, although it would end with the text. -/

namespace Readings

theorem extract_append_extract {α : Type} (text : List α) {start middle stop : Nat}
    (before : start ≤ middle) (behind : middle ≤ stop) :
    text.extract start middle ++ text.extract middle stop = text.extract start stop := by
  have sum : stop - start = (middle - start) + (stop - middle) := by omega
  have place : start + (middle - start) = middle := by omega
  simp only [List.extract_eq_take_drop]
  rw [sum, List.take_add, List.drop_drop, place]

/-- The parts of an excerpt are the characters of the range and those on either side of it. -/
structure Excerpt.IsAround (source : List Char) (range : TextRange) (width : Nat) (piece : Excerpt) :
    Prop where
  before : piece.before = source.extract (range.start - width) range.start
  inside : piece.inside = source.extract range.start range.stop
  after : piece.after = source.extract range.stop (min (range.stop + width) source.length)
  joined : piece.before ++ piece.inside ++ piece.after =
    source.extract (range.start - width) (min (range.stop + width) source.length)
  whole : source.length ≤ width → piece.before ++ piece.inside ++ piece.after = source

variable {source : List Char} {range : TextRange} {width : Nat}

theorem excerpt_none (outside : source.length < range.stop) : excerpt source range width = .ok none :=
  if_pos outside

theorem excerpt_fault (within : range.stop ≤ source.length) (wide : countBound ≤ range.stop + width) :
    excerpt source range width = .error .outOfRange := by
  rw [excerpt, if_neg (Nat.not_lt.mpr within), addCounts, if_neg (Nat.not_lt.mpr wide)]
  rfl

theorem excerpt_some (within : range.stop ≤ source.length) (narrow : range.stop + width < countBound) :
    ∃ piece, excerpt source range width = .ok (some piece) ∧ piece.IsAround source range width := by
  have ordered := range.ordered
  have joined : source.extract (range.start - width) range.start ++ source.extract range.start range.stop ++
      source.extract range.stop (min (range.stop + width) source.length) =
      source.extract (range.start - width) (min (range.stop + width) source.length) := by
    rw [extract_append_extract source (by omega) ordered,
      extract_append_extract source (by omega) (by omega)]
  refine ⟨⟨_, _, _⟩, ?_, rfl, rfl, rfl, joined, fun wide => ?_⟩
  · rw [excerpt, if_neg (Nat.not_lt.mpr within), addCounts, if_pos narrow]
    rfl
  · have start : range.start - width = 0 := by omega
    have stop : min (range.stop + width) source.length = source.length := by omega
    rw [joined, start, stop]
    simp

/-- An excerpt is answered unless it is wider than there are counts, and there is none exactly of a range
that ends behind the text. -/
theorem excerpt_exact (source : List Char) (range : TextRange) (width : Nat) :
    ((∃ answer, excerpt source range width = .ok answer) ↔
      source.length < range.stop ∨ range.stop + width < countBound) ∧
      (excerpt source range width = .ok none ↔ source.length < range.stop) ∧
      ∀ piece, excerpt source range width = .ok (some piece) → piece.IsAround source range width := by
  rcases Nat.lt_or_ge source.length range.stop with outside | within
  · simp [excerpt_none outside, outside]
  rcases Nat.lt_or_ge (range.stop + width) countBound with narrow | wide
  · obtain ⟨piece, found, around⟩ := excerpt_some within narrow
    rw [found]
    refine ⟨iff_of_true ⟨_, rfl⟩ (Or.inr narrow), iff_of_false nofun (Nat.not_lt.mpr within), ?_⟩
    rintro _ ⟨⟩
    exact around
  · simp [excerpt_fault within wide, within, wide]

/-- Only the start of an excerpt stops at the end of the text before it is computed. -/
theorem widestExcerpt_unanswered :
    (TextRange.between 0 1).stop ≤ "abc".toList.length ∧ countBound - 1 < countBound ∧
      excerpt "abc".toList (.between 0 1) (countBound - 1) = .error .outOfRange :=
  ⟨by decide, by decide, excerpt_fault (by decide) (by decide)⟩

end Readings
