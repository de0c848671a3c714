import Mathlib.Algebra.Order.Field.Basic
import Mathlib.Data.Rat.Cast.Order
import Mathlib.Order.Bounds.Basic
import Readings.Text.Distance

/-! The edit distance of two texts as the least number of edits, an edit being one character inserted,
deleted or replaced at any place. The first characters of two texts are replaced, deleted or inserted in
the course of any edits between them, or stay; so the least number for two texts comes from those for
texts without their last characters, which is how a row is made of the row before it. An entry is read
only after it was written, so it makes no difference what the older row holds. -/

namespace Readings.Text

/-- One character inserted, deleted or replaced. -/
inductive Edit : List Char → List Char → Prop where
  | insert (c : Char) (text : List Char) : Edit text (c :: text)
  | delete (c : Char) (text : List Char) : Edit (c :: text) text
  | replace (c d : Char) (text : List Char) : Edit (c :: text) (d :: text)
  | behind (c : Char) {a b : List Char} (edit : Edit a b) : Edit (c :: a) (c :: b)

inductive EditsTo : Nat → List Char → List Char → Prop where
  | done (text : List Char) : EditsTo 0 text text
  | edit {count : Nat} {a b c : List Char} (first : Edit a b) (rest : EditsTo count b c) :
      EditsTo (count + 1) a c

def IsDistance (a b : List Char) (distance : Nat) : Prop :=
  IsLeast {count | EditsTo count a b} distance

variable {a b : List Char} {c d : Char} {count : Nat}

namespace Edit

theorem symm (edit : Edit a b) : Edit b a := by
  induction edit with
  | insert c text => exact .delete c text
  | delete c text => exact .insert c text
  | replace c d text => exact .replace d c text
  | behind c _ ih => exact .behind c ih

theorem append (edit : Edit a b) (back : List Char) : Edit (a ++ back) (b ++ back) := by
  induction edit with
  | insert c text => exact .insert c (text ++ back)
  | delete c text => exact .delete c (text ++ back)
  | replace c d text => exact .replace c d (text ++ back)
  | behind c _ ih => exact .behind c ih

theorem after (front : List Char) (edit : Edit a b) : Edit (front ++ a) (front ++ b) := by
  induction front with
  | nil => exact edit
  | cons c front ih => exact .behind c ih

theorem reverse (edit : Edit a b) : Edit a.reverse b.reverse := by
  induction edit with
  | insert c text => simpa using (Edit.insert c []).after text.reverse
  | delete c text => simpa using (Edit.delete c []).after text.reverse
  | replace c d text => simpa using (Edit.replace c d []).after text.reverse
  | behind c _ ih => simpa using ih.append [c]

theorem length_le (edit : Edit a b) : b.length ≤ a.length + 1 := by
  induction edit with
  | insert => exact Nat.le_refl _
  | delete => exact Nat.le_add_right _ 2
  | replace => exact Nat.le_succ _
  | behind c _ ih => exact Nat.succ_le_succ ih

end Edit

namespace EditsTo

theorem one (edit : Edit a b) : EditsTo 1 a b := .edit edit (.done b)

theorem trans {more : Nat} {text : List Char} (edits : EditsTo count a b)
    (others : EditsTo more b text) : EditsTo (count + more) a text := by
  induction edits with
  | done => rwa [Nat.zero_add]
  | edit first _ ih => rw [Nat.add_right_comm]; exact .edit first (ih others)

theorem symm (edits : EditsTo count a b) : EditsTo count b a := by
  induction edits with
  | done text => exact .done text
  | edit first _ ih => exact ih.trans (.one first.symm)

theorem map {around : List Char → List Char} (edits : EditsTo count a b)
    (each : ∀ {a b}, Edit a b → Edit (around a) (around b)) :
    EditsTo count (around a) (around b) := by
  induction edits with
  | done text => exact .done (around text)
  | edit first _ ih => exact .edit (each first) ih

theorem behind (c : Char) (edits : EditsTo count a b) : EditsTo count (c :: a) (c :: b) :=
  edits.map (.behind c)

theorem length_le (edits : EditsTo count a b) : b.length ≤ a.length + count := by
  induction edits with
  | done => exact Nat.le_refl _
  | edit first _ ih =>
    have bound := first.length_le
    omega

theorem written (text : List Char) : EditsTo text.length [] text := by
  induction text with
  | nil => exact .done []
  | cons c text ih => exact ih.trans (.one (.insert c text))

theorem replaced (edits : EditsTo count a b) (c d : Char) :
    EditsTo (count + if c = d then 0 else 1) (c :: a) (d :: b) := by
  split
  next same => exact same ▸ edits.behind c
  next => exact (edits.behind c).trans (.one (.replace c d b))

theorem zero_iff : EditsTo 0 a b ↔ a = b := by
  constructor
  · rintro ⟨⟩
    rfl
  · rintro rfl
    exact .done a

theorem exists_le (a b : List Char) : ∃ count ≤ max a.length b.length, EditsTo count a b := by
  induction a generalizing b with
  | nil => exact ⟨b.length, Nat.le_max_right _ _, written b⟩
  | cons c a ih =>
    cases b with
    | nil => exact ⟨(c :: a).length, Nat.le_max_left _ _, (written (c :: a)).symm⟩
    | cons d b =>
      obtain ⟨count, few, edits⟩ := ih b
      refine ⟨_, ?_, edits.replaced c d⟩
      simp only [List.length_cons]
      split <;> omega

/-- Of the edits between two texts, one inserts or deletes the first character, or the others turn the
texts behind the first characters into each other. The induction is on the number of edits, for a
character inserted in front may be deleted again. -/
theorem heads (edits : EditsTo count (c :: a) (d :: b)) :
    (∃ fewer, EditsTo fewer a b ∧ fewer + (if c = d then 0 else 1) ≤ count) ∨
      (∃ fewer, EditsTo fewer a (d :: b) ∧ fewer < count) ∨
        ∃ fewer, EditsTo fewer (c :: a) b ∧ fewer < count := by
  induction count using Nat.strong_induction_on generalizing c a with
  | _ count ih =>
    cases edits with
    | done => exact .inl ⟨0, .done _, by simp⟩
    | @edit count _ _ _ first rest =>
      cases first with
      | insert e =>
        obtain ⟨fewer, behind, bound⟩ | ⟨fewer, again, bound⟩ | ⟨fewer, shorter, bound⟩ :=
          ih count (Nat.lt_succ_self count) rest
        · exact .inr (.inr ⟨fewer, behind, by omega⟩)
        · obtain ⟨least, behind, bounded⟩ | ⟨least, behind, bounded⟩ | ⟨least, behind, bounded⟩ :=
            ih fewer (by omega) again
          · exact .inl ⟨least, behind, by omega⟩
          · exact .inr (.inl ⟨least, behind, by omega⟩)
          · exact .inr (.inr ⟨least, behind, by omega⟩)
        · exact .inr (.inr ⟨fewer + 1, .edit (.insert e _) shorter, by omega⟩)
      | delete => exact .inr (.inl ⟨count, rest, Nat.lt_succ_self count⟩)
      | replace _ e =>
        obtain ⟨fewer, behind, bound⟩ | ⟨fewer, behind, bound⟩ | ⟨fewer, shorter, bound⟩ :=
          ih count (Nat.lt_succ_self count) rest
        · exact .inl ⟨fewer, behind, by split <;> omega⟩
        · exact .inr (.inl ⟨fewer, behind, by omega⟩)
        · exact .inr (.inr ⟨fewer + 1, .edit (.replace c e a) shorter, by omega⟩)
      | behind _ inner =>
        obtain ⟨fewer, behind, bound⟩ | ⟨fewer, behind, bound⟩ | ⟨fewer, shorter, bound⟩ :=
          ih count (Nat.lt_succ_self count) rest
        · exact .inl ⟨fewer + 1, .edit inner behind, by omega⟩
        · exact .inr (.inl ⟨fewer + 1, .edit inner behind, by omega⟩)
        · exact .inr (.inr ⟨fewer + 1, .edit (.behind c inner) shorter, by omega⟩)

end EditsTo

namespace IsDistance

theorem symm {distance : Nat} (least : IsDistance a b distance) : IsDistance b a distance :=
  ⟨least.1.symm, fun _ edits => least.2 (EditsTo.symm edits)⟩

theorem reverse {distance : Nat} (least : IsDistance a b distance) :
    IsDistance a.reverse b.reverse distance := by
  refine ⟨least.1.map Edit.reverse, fun count edits => least.2 ?_⟩
  simpa using EditsTo.map edits Edit.reverse

theorem written (text : List Char) : IsDistance [] text text.length :=
  ⟨.written text, fun _ edits => by simpa using EditsTo.length_le edits⟩

theorem cons {replaced deleted inserted : Nat} (both : IsDistance a b replaced)
    (first : IsDistance a (d :: b) deleted) (second : IsDistance (c :: a) b inserted) :
    IsDistance (c :: a) (d :: b)
      (min (min (replaced + if c = d then 0 else 1) (deleted + 1)) (inserted + 1)) := by
  constructor
  · rcases Nat.le_total (min (replaced + if c = d then 0 else 1) (deleted + 1)) (inserted + 1) with
      least | least
    · rw [Nat.min_eq_left least]
      rcases Nat.le_total (replaced + if c = d then 0 else 1) (deleted + 1) with least | least
      · rw [Nat.min_eq_left least]
        exact both.1.replaced c d
      · rw [Nat.min_eq_right least]
        exact .edit (.delete c a) first.1
    · rw [Nat.min_eq_right least]
      exact second.1.trans (.one (.insert d b))
  · intro count edits
    obtain ⟨fewer, edits, bound⟩ | ⟨fewer, edits, bound⟩ | ⟨fewer, edits, bound⟩ :=
      EditsTo.heads edits
    · have least := both.2 edits
      omega
    · have least := first.2 edits
      omega
    · have least := second.2 edits
      omega

theorem concat {replaced deleted inserted : Nat} (both : IsDistance a b replaced)
    (first : IsDistance a (b ++ [d]) deleted) (second : IsDistance (a ++ [c]) b inserted) :
    IsDistance (a ++ [c]) (b ++ [d])
      (min (min (replaced + if c = d then 0 else 1) (deleted + 1)) (inserted + 1)) := by
  have reversed := (both.reverse).cons (by simpa using first.reverse) (by simpa using second.reverse)
  simpa using reversed.reverse

end IsDistance

section Rows
variable {text : Array Char} {row older next : DistanceRow text}

/-- The entries of a row up to a column are the distances to the beginnings up to there. -/
def IsWritten (a : List Char) (last : Nat) (row : DistanceRow text) : Prop :=
  ∀ column, (inside : column < text.size + 1) → column ≤ last →
    IsDistance a (text.toList.take column) row[column]

theorem IsWritten.writeEntry {column : Nat} (inside : column < text.size)
    (above : IsWritten a text.size row) (written : IsWritten (a ++ [c]) column next) :
    IsWritten (a ++ [c]) (column + 1) (writeEntry text c row column inside next) := by
  intro place within reached
  rw [Text.writeEntry, Vector.getElem_set]
  split
  next here =>
    subst here
    have longer : text.toList.take (column + 1) = text.toList.take column ++ [text[column]] := by
      rw [List.take_succ_eq_append_getElem (by simpa using inside), Array.getElem_toList]
    have deleted := above (column + 1) within inside
    rw [longer] at deleted ⊢
    exact (above column (by omega) (by omega)).concat deleted (written column (by omega) (by omega))
  next elsewhere => exact written place within (by omega)

theorem isWritten_nextRow (above : IsWritten a text.size row) (older : DistanceRow text) :
    IsWritten (a ++ [c]) text.size (nextRow text c (a.length + 1) row older) := by
  have filled : ∀ last, (within : last ≤ text.size) → IsWritten (a ++ [c]) last
      (last.fold (fun column inside => writeEntry text c row column (by omega))
        (older.set 0 (a.length + 1))) := by
    intro last within
    induction last with
    | zero =>
      intro column inside reached
      obtain rfl := Nat.le_zero.mp reached
      simpa using (IsDistance.written (a ++ [c])).symm
    | succ last ih =>
      rw [Nat.fold_succ]
      exact above.writeEntry (by omega) (ih (by omega))
  exact filled text.size (Nat.le_refl _)

theorem isWritten_rowFrom (above : IsWritten a text.size row) (older : DistanceRow text)
    (rest : List Char) : IsWritten (a ++ rest) text.size (rowFrom text a.length row older rest) := by
  induction rest generalizing a row older with
  | nil => simpa [rowFrom] using above
  | cons c rest ih =>
    have below := ih (isWritten_nextRow (c := c) above older) row
    rw [List.length_append, List.append_assoc] at below
    exact below

theorem isWritten_range (text : Array Char) :
    IsWritten [] text.size (Vector.range (text.size + 1) : DistanceRow text) := by
  intro column inside reached
  have length : (text.toList.take column).length = column := by simpa using reached
  have written := IsDistance.written (text.toList.take column)
  rw [Vector.getElem_range inside]
  rwa [length] at written

end Rows

theorem isDistance_editDistance (a b : List Char) : IsDistance a b (editDistance a b) := by
  have written := isWritten_rowFrom (isWritten_range b.toArray) (Vector.replicate _ 0) a
  simpa [editDistance] using! written b.toArray.size (Nat.lt_succ_self _) (Nat.le_refl _)

/-- The two rows give the least number of edits, so they give a metric. The longer of two texts is never
exceeded, so the part of it that a similarity takes from one is at most one. -/
theorem editDistance_exact (a b c : List Char) :
    IsLeast {count | EditsTo count a b} (editDistance a b) ∧
      editDistance a b = editDistance b a ∧
      (editDistance a b = 0 ↔ a = b) ∧
      editDistance a c ≤ editDistance a b + editDistance b c ∧
      editDistance a b ≤ max a.length b.length ∧
      (editDistance a b : ℚ) / (max a.length b.length : ℕ) ≤ 1 := by
  have least := isDistance_editDistance a b
  have bounded : editDistance a b ≤ max a.length b.length := by
    obtain ⟨count, few, edits⟩ := EditsTo.exists_le a b
    exact Nat.le_trans (least.2 edits) few
  refine ⟨least, least.unique (isDistance_editDistance b a).symm, ⟨fun none => ?_, ?_⟩, ?_, bounded, ?_⟩
  · exact EditsTo.zero_iff.mp (none ▸ least.1)
  · intro same
    exact Nat.le_zero.mp (least.2 (EditsTo.zero_iff.mpr same))
  · exact (isDistance_editDistance a c).2 (EditsTo.trans least.1 (isDistance_editDistance b c).1)
  · exact div_le_one_of_le₀ (Nat.cast_le.mpr bounded) (Nat.cast_nonneg _)

example : editDistance "kitten".toList "sitting".toList = 3 := by decide +kernel

end Readings.Text
