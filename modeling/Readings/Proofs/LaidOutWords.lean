import Mathlib.Data.List.DropRight
import Readings.Token

/-! Texts cut into words and laid out again. The words of a text are its maximal runs of characters that
are not blank, in their order; what is read of a run when the next character comes stands in front of it.
Laid out, the words make the text again with spaces for its blanks and without those at its end, and a
text has the same words whatever its blanks are and however many stand at its end. -/

namespace Readings

namespace Text

/-- A maximal run of characters that are not blank, and the offset of its first character. -/
def IsRun (text : List Char) (start : Nat) (word : List Char) : Prop :=
  ∃ front back, text = front ++ word ++ back ∧ front.length = start ∧
    word ≠ [] ∧ (∀ c ∈ word, isBlank c = false) ∧
      (∀ c ∈ front.getLast?, isBlank c = true) ∧ ∀ c ∈ back.head?, isBlank c = true

def spaced (c : Char) : Char := if isBlank c then ' ' else c

@[simp] theorem isBlank_spaced (c : Char) : isBlank (spaced c) = isBlank c := by
  unfold spaced
  split
  next blank => rw [blank]; decide
  next => rfl

theorem spaced_of_solid {c : Char} (solid : isBlank c = false) : spaced c = c := by
  simp [spaced, solid]

theorem spaced_of_blank {c : Char} (blank : isBlank c = true) : spaced c = ' ' := by
  simp [spaced, blank]

namespace IsRun

variable {text word other : List Char} {start begin place : Nat}

theorem stop_le (run : IsRun text start word) : start + word.length ≤ text.length := by
  obtain ⟨front, back, rfl, rfl, -⟩ := run
  simp

theorem word_eq (run : IsRun text start word) : (text.drop start).take word.length = word := by
  obtain ⟨front, back, rfl, rfl, -⟩ := run
  simp

theorem solid (run : IsRun text start word) (after : start ≤ place)
    (before : place < start + word.length) : ∀ c ∈ text[place]?, isBlank c = false := by
  obtain ⟨front, back, rfl, rfl, -, solid, -⟩ := run
  intro c found
  rw [List.append_assoc, List.getElem?_append_right after,
    List.getElem?_append_left (by omega)] at found
  exact solid c (List.mem_of_getElem? found)

theorem opened (run : IsRun text (start + 1) word) : ∃ c ∈ text[start]?, isBlank c = true := by
  obtain ⟨front, back, rfl, length, -, -, opened, -⟩ := run
  have last : front.getLast? = front[start]? := by rw [List.getLast?_eq_getElem?, length]; rfl
  rw [List.append_assoc, List.getElem?_append_left (by omega)]
  exact ⟨front[start], by simp, opened _ (by simp [last])⟩

theorem closed (run : IsRun text start word) :
    ∀ c ∈ text[start + word.length]?, isBlank c = true := by
  obtain ⟨front, back, rfl, rfl, -, -, -, closed⟩ := run
  intro c found
  rw [← List.length_append, List.getElem?_append_right (Nat.le_refl _), Nat.sub_self,
    ← List.head?_eq_getElem?] at found
  exact closed c found

theorem start_le (run : IsRun text start word) (others : IsRun text begin other)
    (before : start ≤ place) (within : place < begin + other.length) : start ≤ begin := by
  by_contra later
  obtain ⟨earlier, rfl⟩ : ∃ earlier, start = earlier + 1 := ⟨start - 1, by omega⟩
  obtain ⟨c, found, blank⟩ := run.opened
  have solid := others.solid (show begin ≤ earlier by omega) (by omega) c found
  exact absurd (blank.symm.trans solid) (by decide)

theorem length_le (run : IsRun text start word) (others : IsRun text start other) :
    word.length ≤ other.length := by
  by_contra longer
  have inside : start + other.length < text.length := by have := run.stop_le; omega
  have found : text[start + other.length] ∈ text[start + other.length]? := by simp
  have solid := run.solid (by omega) (by omega) _ found
  exact absurd ((others.closed _ found).symm.trans solid) (by decide)

theorem unique (run : IsRun text start word) (others : IsRun text begin other)
    (before : start ≤ place) (inside : place < start + word.length) (after : begin ≤ place)
    (within : place < begin + other.length) : start = begin ∧ word = other := by
  obtain rfl : start = begin := Nat.le_antisymm (run.start_le others before within)
    (others.start_le run after inside)
  have length := Nat.le_antisymm (run.length_le others) (others.length_le run)
  exact ⟨rfl, by rw [← run.word_eq, ← others.word_eq, length]⟩

end IsRun

end Text

namespace Token

open Text

/-- The words behind a place of a text, in their order. -/
structure IsCut (text : List Char) (place : Nat) (words : List (Nat × List Char)) : Prop where
  runs : ∀ entry ∈ words, place ≤ entry.1 ∧ IsRun text entry.1 entry.2
  apart : words.Pairwise fun first second => first.1 + first.2.length < second.1
  covers : ∀ offset, place ≤ offset → ∀ c ∈ text[offset]?, isBlank c = false →
    ∃ entry ∈ words, entry.1 ≤ offset ∧ offset < entry.1 + entry.2.length

variable {text front word rest : List Char} {c : Char} {words : List (Nat × List Char)}

theorem IsCut.last (opened : ∀ c ∈ front.getLast?, isBlank c = true)
    (solid : ∀ c ∈ word, isBlank c = false) :
    IsCut (front ++ word) front.length (if word.isEmpty then [] else [(front.length, word)]) := by
  by_cases empty : word = []
  · subst empty
    refine ⟨by simp, by simp, ?_⟩
    intro offset after c found
    rw [List.append_nil, List.getElem?_eq_none after] at found
    cases found
  · have listed : (if word.isEmpty then [] else [(front.length, word)]) = [(front.length, word)] :=
      if_neg (by simpa using empty)
    rw [listed]
    refine ⟨?_, List.pairwise_singleton _ _, ?_⟩
    · rintro entry member
      obtain rfl := List.mem_singleton.mp member
      exact ⟨Nat.le_refl _, front, [], by simp, rfl, empty, solid, opened, by simp⟩
    · intro offset after c found _
      obtain ⟨inside, -⟩ := List.getElem?_eq_some_iff.mp found
      exact ⟨_, List.mem_singleton_self _, after, by simpa using inside⟩

theorem IsCut.blank (opened : ∀ c ∈ front.getLast?, isBlank c = true)
    (solid : ∀ c ∈ word, isBlank c = false) (blank : isBlank c = true)
    (cut : IsCut (front ++ word ++ c :: rest) (front.length + word.length + 1) words) :
    IsCut (front ++ word ++ c :: rest) front.length
      ((if word.isEmpty then [] else [(front.length, word)]) ++ words) := by
  have covers : ∀ offset, front.length + word.length ≤ offset →
      ∀ d ∈ (front ++ word ++ c :: rest)[offset]?, isBlank d = false →
        ∃ entry ∈ words, entry.1 ≤ offset ∧ offset < entry.1 + entry.2.length := by
    intro offset after d found solid
    rcases Nat.eq_or_lt_of_le after with here | behind
    · subst here
      rw [← List.length_append, List.getElem?_append_right (Nat.le_refl _), Nat.sub_self] at found
      obtain rfl : c = d := by simpa using found
      exact absurd (blank.symm.trans solid) (by decide)
    · exact cut.covers offset behind d found solid
  by_cases empty : word = []
  · subst empty
    refine ⟨fun entry member => ?_, by simpa using cut.apart, ?_⟩
    · obtain ⟨after, run⟩ := cut.runs entry (by simpa using member)
      exact ⟨by simp only [List.length_nil] at after; omega, run⟩
    · intro offset after d found solid
      simpa using covers offset (by simpa using after) d found solid
  · have listed : (if word.isEmpty then [] else [(front.length, word)]) = [(front.length, word)] :=
      if_neg (by simpa using empty)
    rw [listed, List.singleton_append]
    refine ⟨?_, List.pairwise_cons.mpr ⟨fun entry member => ?_, cut.apart⟩, ?_⟩
    · rw [List.forall_mem_cons]
      refine ⟨⟨Nat.le_refl _, front, c :: rest, rfl, rfl, empty, solid, opened, ?_⟩, ?_⟩
      · simpa using blank
      · intro entry member
        obtain ⟨after, run⟩ := cut.runs entry member
        exact ⟨by omega, run⟩
    · obtain ⟨after, -⟩ := cut.runs entry member
      exact after
    · intro offset after d found inWord
      by_cases inside : offset < front.length + word.length
      · exact ⟨_, List.mem_cons_self, after, inside⟩
      · obtain ⟨entry, member, within⟩ := covers offset (by omega) d found inWord
        exact ⟨entry, List.mem_cons_of_mem _ member, within⟩

/-- The induction is on the text not yet read; behind a blank it goes on with all that is read in front. -/
theorem isCut_wordsFrom (front word rest : List Char) (opened : ∀ c ∈ front.getLast?, isBlank c = true)
    (solid : ∀ c ∈ word, isBlank c = false) :
    IsCut (front ++ word.reverse ++ rest) front.length
      (wordsFrom (front.length + word.length) word rest) := by
  induction rest generalizing front word with
  | nil =>
    have reversed : ∀ c ∈ word.reverse, isBlank c = false := by simpa using solid
    simpa [wordsFrom] using IsCut.last opened reversed
  | cons c rest ih =>
    rw [wordsFrom]
    split
    next blank =>
      have behind := ih (front ++ word.reverse ++ [c]) [] (by simpa using blank) (by simp)
      have reversed : ∀ c ∈ word.reverse, isBlank c = false := by simpa using solid
      have cut := IsCut.blank opened reversed blank (by simpa [Nat.add_assoc] using behind)
      simpa [Nat.add_assoc] using cut
    next more =>
      have longer : ∀ d ∈ c :: word, isBlank d = false :=
        List.forall_mem_cons.mpr ⟨by simpa using more, solid⟩
      simpa [Nat.add_assoc] using ih front (c :: word) opened longer

theorem isCut_words (text : List Char) : IsCut text 0 (wordsFrom 0 [] text) := by
  simpa using isCut_wordsFrom [] [] text (by simp) (by simp)

/-- A word that is a maximal run of a text, with its class and the offsets of its characters. -/
structure IsWord (text : List Char) (classify : String → WordClass) (token : Token) : Prop where
  run : IsRun text token.span.start token.text.toList
  stop : token.span.stop = token.span.start + token.text.length
  kind : token.kind = (classify token.text).kind
  tags : token.tags = (classify token.text).tags
  single : token.merged = false

theorem IsWord.eq_ofWord {classify : String → WordClass} {token : Token}
    (is : IsWord text classify token) :
    token = ofWord classify token.span.start token.text.toList := by
  obtain ⟨shown, kind, tags, ⟨start, stop, ordered⟩, merged⟩ := token
  obtain ⟨-, stops, kinds, tagged, single⟩ := is
  simp only at stops kinds tagged single
  subst stops kinds tagged single
  simp [ofWord, String.length_toList]

theorem mem_ofWords_iff {text : String} {classify : String → WordClass} {token : Token} :
    token ∈ ofWords text classify ↔ IsWord text.toList classify token := by
  have cut := isCut_words text.toList
  constructor
  · intro member
    obtain ⟨⟨start, word⟩, listed, rfl⟩ := List.mem_map.mp member
    obtain ⟨-, run⟩ := cut.runs _ listed
    exact ⟨by simpa [ofWord] using run, by simp [ofWord], rfl, rfl, rfl⟩
  · intro is
    obtain ⟨front, back, split, start, some, solid, -⟩ := is.run
    have first : ∃ c ∈ text.toList[token.span.start]?, isBlank c = false := by
      obtain ⟨c, others, shown⟩ := List.exists_cons_of_ne_nil some
      refine ⟨c, ?_, solid c (by simp [shown])⟩
      rw [split, shown, ← start]
      simp
    obtain ⟨c, found, shown⟩ := first
    obtain ⟨entry, listed, after, within⟩ := cut.covers _ (Nat.zero_le _) c found shown
    have positive := List.length_pos_iff.mpr some
    obtain ⟨starts, words⟩ := (cut.runs entry listed).2.unique is.run after within (Nat.le_refl _)
      (by omega)
    rw [is.eq_ofWord, ← starts, ← words]
    exact List.mem_map_of_mem listed

theorem pairwise_ofWords (text : String) (classify : String → WordClass) :
    (ofWords text classify).Pairwise fun first second => first.span.stop < second.span.start :=
  List.pairwise_map.mpr ((isCut_words text.toList).apart.imp fun apart => apart)

/-- The blanks behind a word are dropped, but none in front of it. -/
theorem rdropWhile_behind (front : List Char) (some : word ≠ []) (solid : ∀ c ∈ word, isBlank c = false)
    (back : List Char) :
    (front ++ word.reverse ++ back).rdropWhile isBlank =
      front ++ word.reverse ++ back.rdropWhile isBlank := by
  induction back using List.reverseRecOn with
  | nil =>
    obtain ⟨c, others, rfl⟩ := List.exists_cons_of_ne_nil some
    have last := solid c List.mem_cons_self
    rw [List.rdropWhile_nil, List.append_nil, List.reverse_cons, ← List.append_assoc,
      List.rdropWhile_concat_neg _ _ _ (by simp [last])]
  | append_singleton back c ih =>
    rw [← List.append_assoc, List.rdropWhile_concat, List.rdropWhile_concat, ih]
    split <;> simp

theorem layOutFrom_cons {length : Nat} {token : Token} (room : length ≤ token.span.start)
    (tokens : List Token) :
    layOutFrom length (token :: tokens) = List.replicate (token.span.start - length) ' ' ++
      token.text.toList ++ layOutFrom (token.span.start + token.text.length) tokens := by
  rw [layOutFrom, List.length_replicate, Nat.add_sub_cancel' room, String.length_toList]

theorem layOutFrom_word (classify : String → WordClass) {length start : Nat} (room : length ≤ start)
    (word : List Char) (tokens : List Token) :
    layOutFrom length (ofWord classify start word :: tokens) =
      List.replicate (start - length) ' ' ++ word ++ layOutFrom (start + word.length) tokens := by
  rw [layOutFrom_cons room]
  simp [ofWord]

/-- A text is laid out as it was cut, with `length` characters laid out in front of the run read so far. -/
theorem layOutFrom_wordsFrom (classify : String → WordClass) (length offset : Nat) (word rest : List Char)
    (solid : ∀ c ∈ word, isBlank c = false) (room : length + word.length ≤ offset) :
    layOutFrom length ((wordsFrom offset word rest).map fun (start, word) => ofWord classify start word) =
      (List.replicate (offset - word.length - length) ' ' ++ word.reverse ++
        rest.map spaced).rdropWhile isBlank := by
  induction rest generalizing length offset word with
  | nil =>
    rw [wordsFrom, List.map_nil]
    split
    next none =>
      obtain rfl := List.isEmpty_iff.mp none
      have space : isBlank ' ' = true := by decide
      symm
      simp [layOutFrom, List.rdropWhile_eq_nil_iff, space]
    next some =>
      rw [rdropWhile_behind _ (by simpa using some) solid, List.rdropWhile_nil, List.map_singleton,
        layOutFrom_word classify (by omega), List.length_reverse, layOutFrom]
  | cons c rest ih =>
    rw [wordsFrom, List.map_cons]
    split
    next blank =>
      have behind : ∀ {length}, length ≤ offset →
          layOutFrom length ((wordsFrom (offset + 1) [] rest).map fun (start, word) =>
            ofWord classify start word) =
          (List.replicate (offset - length) ' ' ++ spaced c :: rest.map spaced).rdropWhile isBlank := by
        intro length room
        have laid := ih length (offset + 1) [] (by simp) (by simp; omega)
        have longer : offset + 1 - length = offset - length + 1 := by omega
        simpa [spaced_of_blank blank, longer, List.replicate_succ'] using laid
      split
      next none =>
        obtain rfl := List.isEmpty_iff.mp none
        simpa using behind (by simpa using room)
      next some =>
        rw [rdropWhile_behind _ (by simpa using some) solid, List.map_append, List.map_singleton,
          List.singleton_append, layOutFrom_word classify (by omega), List.length_reverse,
          Nat.sub_add_cancel (by omega), behind (Nat.le_refl _), Nat.sub_self, List.replicate_zero,
          List.nil_append]
    next more =>
      have laid := ih length (offset + 1) (c :: word)
        (List.forall_mem_cons.mpr ⟨by simpa using more, solid⟩) (by simp; omega)
      have start : offset + 1 - (word.length + 1) = offset - word.length := by omega
      simpa [spaced_of_solid (by simpa using more), start] using laid

theorem wordsFrom_map_spaced (offset : Nat) (word text : List Char) :
    wordsFrom offset word (text.map spaced) = wordsFrom offset word text := by
  induction text generalizing offset word with
  | nil => rfl
  | cons c text ih =>
    rw [List.map_cons, wordsFrom, wordsFrom, isBlank_spaced]
    split
    next => rw [ih]
    next more => rw [ih, spaced_of_solid (by simpa using more)]

theorem wordsFrom_concat_blank (blank : isBlank c = true) (offset : Nat) (word text : List Char) :
    wordsFrom offset word (text ++ [c]) = wordsFrom offset word text := by
  induction text generalizing offset word with
  | nil => simp [wordsFrom, blank]
  | cons d text ih => rw [List.cons_append, wordsFrom, wordsFrom, ih, ih]

theorem wordsFrom_rdropWhile (offset : Nat) (word text : List Char) :
    wordsFrom offset word (text.rdropWhile isBlank) = wordsFrom offset word text := by
  induction text using List.reverseRecOn with
  | nil => rfl
  | append_singleton text c ih =>
    rw [List.rdropWhile_concat]
    split
    next blank => rw [ih, wordsFrom_concat_blank blank]
    next => rfl

/-- Words are the maximal runs of a text, each once and in their order, with their offsets, of which none
is beyond the text. Laid out again they make the text with spaces for its blanks and without those at its
end, and that has the same words. -/
theorem ofWords_exact (text : String) (classify : String → WordClass) :
    (∀ token, token ∈ ofWords text classify ↔ IsWord text.toList classify token) ∧
      ((ofWords text classify).Pairwise fun first second => first.span.stop < second.span.start) ∧
      (∀ token ∈ ofWords text classify, token.span.stop ≤ text.length) ∧
      layOut (ofWords text classify) =
        String.ofList ((text.toList.map spaced).rdropWhile isBlank) ∧
      ofWords (layOut (ofWords text classify)) classify = ofWords text classify := by
  have laid : layOut (ofWords text classify) =
      String.ofList ((text.toList.map spaced).rdropWhile isBlank) := by
    have made := layOutFrom_wordsFrom classify 0 0 [] text.toList (by simp) (by simp)
    rw [layOut, ofWords, made]
    rfl
  refine ⟨fun token => mem_ofWords_iff, pairwise_ofWords text classify, fun token member => ?_, laid, ?_⟩
  · have is := mem_ofWords_iff.mp member
    simpa [is.stop, String.length_toList] using is.run.stop_le
  rw [laid, ofWords, String.toList_ofList, wordsFrom_rdropWhile, wordsFrom_map_spaced]
  rfl

end Token

end Readings
