import Readings.Grammar.Build
import Mathlib.Logic.Relation

/-! Sentential forms. A form is rewritten by putting what an element expands to in the place of that
element. What comes of several elements is what comes of each of them, side by side; so a form that comes
of one element has the shape of a tree, and an element comes of another alone exactly along steps that
leave nothing else behind. Other names for the elements change nothing of this. -/

namespace Readings

open Relation (ReflTransGen TransGen)

/-- What a non-terminal may be replaced by under some rules. -/
inductive Element.Expands (rules : List Rule) : Element → List Element → Prop where
  | rule {rule : Rule} (member : rule ∈ rules) : Expands rules (.nonTerminal rule.lhs) rule.rhs

/-- What a name may be replaced by under some rules as their author wrote them. -/
inductive ElementDraft.Expands (drafts : List RuleDraft) : ElementDraft → List ElementDraft → Prop where
  | rule {draft : RuleDraft} (member : draft ∈ drafts) :
      Expands drafts (.nonTerminal draft.lhs) draft.rhs

section
variable {α : Type} (expands : α → List α → Prop)

inductive Rewrites : List α → List α → Prop where
  | step {element : α} {elements : List α} (front back : List α) (known : expands element elements) :
      Rewrites (front ++ element :: back) (front ++ elements ++ back)

def RewritesTo : List α → List α → Prop := ReflTransGen (Rewrites expands)

/-- An element comes of another when all else in an expansion is rewritten to nothing. -/
def LeavesAlone (element sole : α) : Prop :=
  ∃ front back, expands element (front ++ sole :: back) ∧ RewritesTo expands front [] ∧
    RewritesTo expands back []

mutual
/-- A form that comes of one element: it stays, or its expansion is unfolded. -/
inductive Unfolds : α → List α → Prop where
  | stay {element : α} : Unfolds element [element]
  | expand {element : α} {elements form : List α} (known : expands element elements)
      (below : UnfoldsAll elements form) : Unfolds element form

inductive UnfoldsAll : List α → List α → Prop where
  | nil : UnfoldsAll [] []
  | cons {element : α} {elements first rest : List α} (here : Unfolds element first)
      (there : UnfoldsAll elements rest) : UnfoldsAll (element :: elements) (first ++ rest)
end

end

section
variable {α : Type} {expands : α → List α → Prop}

namespace RewritesTo

theorem refl (form : List α) : RewritesTo expands form form := ReflTransGen.refl

theorem trans {first second third : List α} (before : RewritesTo expands first second)
    (behind : RewritesTo expands second third) : RewritesTo expands first third :=
  ReflTransGen.trans before behind

theorem around {form next : List α} (front back : List α) (rewritten : RewritesTo expands form next) :
    RewritesTo expands (front ++ form ++ back) (front ++ next ++ back) := by
  induction rewritten with
  | refl => exact refl _
  | @tail middle last _ step ih =>
    cases step with
    | @step element elements before behind known =>
      apply ih.tail
      have here := Rewrites.step (front ++ before) (behind ++ back) known
      simpa only [List.append_assoc, List.cons_append] using here

theorem append {first second third fourth : List α} (before : RewritesTo expands first second)
    (behind : RewritesTo expands third fourth) :
    RewritesTo expands (first ++ third) (second ++ fourth) := by
  have left := before.around [] third
  have right := behind.around second []
  simp only [List.nil_append, List.append_nil] at left right
  exact left.trans right

theorem expand {element : α} {elements : List α} (front back : List α)
    (known : expands element elements) :
    RewritesTo expands (front ++ element :: back) (front ++ elements ++ back) :=
  ReflTransGen.single (.step front back known)

end RewritesTo

theorem UnfoldsAll.refl (form : List α) : UnfoldsAll expands form form := by
  induction form with
  | nil => exact .nil
  | cons element form ih => exact .cons .stay ih

theorem UnfoldsAll.append {first second third fourth : List α}
    (before : UnfoldsAll expands first second) (behind : UnfoldsAll expands third fourth) :
    UnfoldsAll expands (first ++ third) (second ++ fourth) := by
  induction first generalizing second with
  | nil =>
    cases before
    exact behind
  | cons element first ih =>
    cases before with
    | cons here there =>
      rw [List.append_assoc]
      exact .cons here (ih there)

theorem UnfoldsAll.split {first third form : List α}
    (unfolded : UnfoldsAll expands (first ++ third) form) :
    ∃ second fourth, form = second ++ fourth ∧ UnfoldsAll expands first second ∧
      UnfoldsAll expands third fourth := by
  induction first generalizing form with
  | nil => exact ⟨[], form, rfl, .nil, unfolded⟩
  | cons element first ih =>
    cases unfolded with
    | @cons _ _ front rest here there =>
      obtain ⟨second, fourth, rfl, before, behind⟩ := ih there
      exact ⟨front ++ second, fourth, (List.append_assoc _ _ _).symm, .cons here before, behind⟩

private theorem Rewrites.unfolds {first second form : List α} (step : Rewrites expands first second)
    (unfolded : UnfoldsAll expands second form) : UnfoldsAll expands first form := by
  cases step with
  | step front back known =>
    rw [List.append_assoc] at unfolded
    obtain ⟨before, rest, rfl, left, others⟩ := unfolded.split
    obtain ⟨below, behind, rfl, middle, right⟩ := others.split
    exact left.append (.cons (.expand known middle) right)

mutual
theorem Unfolds.rewritesTo {element : α} {form : List α} :
    Unfolds expands element form → RewritesTo expands [element] form
  | .stay => RewritesTo.refl _
  | .expand known below => by
    have first := RewritesTo.expand [] [] known
    simp only [List.nil_append, List.append_nil] at first
    exact first.trans below.rewritesTo

theorem UnfoldsAll.rewritesTo {elements form : List α} :
    UnfoldsAll expands elements form → RewritesTo expands elements form
  | .nil => RewritesTo.refl _
  | .cons here there => here.rewritesTo.append there.rewritesTo
end

theorem unfoldsAll_iff {elements form : List α} :
    UnfoldsAll expands elements form ↔ RewritesTo expands elements form := by
  constructor
  · exact UnfoldsAll.rewritesTo
  · intro rewritten
    induction rewritten using ReflTransGen.head_induction_on with
    | refl => exact UnfoldsAll.refl form
    | head step _ ih => exact step.unfolds ih

theorem unfolds_iff {element : α} {form : List α} :
    Unfolds expands element form ↔ RewritesTo expands [element] form := by
  rw [← unfoldsAll_iff]
  constructor
  · intro unfolded
    rw [← List.append_nil form]
    exact .cons unfolded .nil
  · intro unfolded
    cases unfolded with
    | cons here there =>
      cases there
      rwa [List.append_nil]

theorem LeavesAlone.rewrites {element sole : α} (alone : LeavesAlone expands element sole) :
    TransGen (Rewrites expands) [element] [sole] := by
  obtain ⟨front, back, known, before, behind⟩ := alone
  have first : Rewrites expands [element] (front ++ sole :: back) := by
    simpa using Rewrites.step [] [] known
  have rest : RewritesTo expands (front ++ sole :: back) [sole] := by
    simpa using before.append ((RewritesTo.refl [sole]).append behind)
  exact TransGen.head' first rest

mutual
private theorem Unfolds.sole {element sole : α} {form : List α} (single : form = [sole]) :
    Unfolds expands element form → ReflTransGen (LeavesAlone expands) element sole
  | .stay => by
    obtain rfl := List.singleton_inj.mp single
    exact ReflTransGen.refl
  | .expand known below => by
    obtain ⟨front, middle, back, rfl, before, behind, steps⟩ := below.sole single
    exact ReflTransGen.head ⟨front, back, known, before, behind⟩ steps

private theorem UnfoldsAll.sole {elements form : List α} {sole : α} (single : form = [sole]) :
    UnfoldsAll expands elements form → ∃ front middle back, elements = front ++ middle :: back ∧
      RewritesTo expands front [] ∧ RewritesTo expands back [] ∧
      ReflTransGen (LeavesAlone expands) middle sole
  | .nil => absurd single (List.cons_ne_nil _ _).symm
  | @UnfoldsAll.cons _ _ element elements first rest here there => by
    rcases List.append_eq_singleton_iff.mp single with ⟨rfl, last⟩ | ⟨only, rfl⟩
    · obtain ⟨front, middle, back, rfl, before, behind, steps⟩ := there.sole last
      exact ⟨element :: front, middle, back, rfl, here.rewritesTo.append before, behind, steps⟩
    · exact ⟨[], element, elements, rfl, RewritesTo.refl [], there.rewritesTo, here.sole only⟩
end

/-- An element derives another alone by steps each of which leaves one element alone. -/
theorem rewrites_alone_iff {element sole : α} :
    TransGen (Rewrites expands) [element] [sole] ↔ TransGen (LeavesAlone expands) element sole := by
  constructor
  · intro derived
    obtain ⟨form, step, rest⟩ := TransGen.head'_iff.mp derived
    generalize start : [element] = begun at step
    cases step with
    | step front back known =>
      rcases List.singleton_eq_append_iff.mp start with ⟨rfl, same⟩ | ⟨-, impossible⟩
      · obtain ⟨rfl, rfl⟩ := List.cons_eq_cons.mp same
        rw [List.nil_append, List.append_nil] at rest
        obtain ⟨front, middle, back, rfl, before, behind, steps⟩ :=
          (unfoldsAll_iff.mpr rest).sole rfl
        exact TransGen.head' ⟨front, back, known, before, behind⟩ steps
      · exact absurd impossible (List.cons_ne_nil _ _)
  · intro steps
    induction steps with
    | single step => exact step.rewrites
    | tail _ step ih => exact ih.trans step.rewrites

end

section Renaming
variable {α β : Type}

/-- A renamed element expands to what its expansions become when they are renamed, and to nothing else. -/
structure IsRenaming (expands : α → List α → Prop) (others : β → List β → Prop) (rename : α → β) :
    Prop where
  keeps : ∀ {element elements}, expands element elements →
    others (rename element) (elements.map rename)
  lifts : ∀ {element elements}, others (rename element) elements →
    ∃ originals, expands element originals ∧ originals.map rename = elements

variable {expands : α → List α → Prop} {others : β → List β → Prop} {rename : α → β}

namespace IsRenaming

theorem rewrites (renames : IsRenaming expands others rename) {form next : List α}
    (step : Rewrites expands form next) : Rewrites others (form.map rename) (next.map rename) := by
  cases step with
  | step front back known =>
    have here := Rewrites.step (front.map rename) (back.map rename) (renames.keeps known)
    simpa only [List.map_append, List.map_cons] using here

theorem exists_rewrites (renames : IsRenaming expands others rename) {form : List α} {next : List β}
    (step : Rewrites others (form.map rename) next) :
    ∃ original, Rewrites expands form original ∧ original.map rename = next := by
  generalize start : form.map rename = begun at step
  cases step with
  | step front back known =>
    obtain ⟨before, rest, rfl, rfl, shape⟩ := List.map_eq_append_iff.mp start
    obtain ⟨element, behind, rfl, rfl, rfl⟩ := List.map_eq_cons_iff.mp shape
    obtain ⟨originals, expanded, rfl⟩ := renames.lifts known
    exact ⟨before ++ originals ++ behind, .step before behind expanded, by simp only [List.map_append]⟩

theorem exists_rewritesTo (renames : IsRenaming expands others rename) {form : List α} {next : List β}
    (rewritten : RewritesTo others (form.map rename) next) :
    ∃ original, RewritesTo expands form original ∧ original.map rename = next := by
  induction rewritten with
  | refl => exact ⟨form, RewritesTo.refl form, rfl⟩
  | tail _ step ih =>
    obtain ⟨middle, derived, rfl⟩ := ih
    obtain ⟨original, last, rfl⟩ := renames.exists_rewrites step
    exact ⟨original, ReflTransGen.tail derived last, rfl⟩

theorem transGen_rewrites_iff (renames : IsRenaming expands others rename) {form : List α}
    {next : List β} :
    TransGen (Rewrites others) (form.map rename) next ↔
      ∃ original, TransGen (Rewrites expands) form original ∧ original.map rename = next := by
  constructor
  · intro derived
    induction derived with
    | single step =>
      obtain ⟨original, first, rfl⟩ := renames.exists_rewrites step
      exact ⟨original, TransGen.single first, rfl⟩
    | tail _ step ih =>
      obtain ⟨middle, before, rfl⟩ := ih
      obtain ⟨original, last, rfl⟩ := renames.exists_rewrites step
      exact ⟨original, TransGen.tail before last, rfl⟩
  · intro renamed
    obtain ⟨original, derived, rfl⟩ := renamed
    exact TransGen.lift (List.map rename) (fun _ _ => renames.rewrites) _ _ derived

theorem exists_leavesAlone (renames : IsRenaming expands others rename) {element : α} {sole : β}
    (alone : LeavesAlone others (rename element) sole) :
    ∃ original, LeavesAlone expands element original ∧ rename original = sole := by
  obtain ⟨front, back, known, before, behind⟩ := alone
  obtain ⟨originals, expanded, shape⟩ := renames.lifts known
  obtain ⟨first, rest, rfl, rfl, ending⟩ := List.map_eq_append_iff.mp shape
  obtain ⟨original, last, rfl, rfl, rfl⟩ := List.map_eq_cons_iff.mp ending
  obtain ⟨nothing, left, empty⟩ := renames.exists_rewritesTo before
  obtain rfl := List.map_eq_nil_iff.mp empty
  obtain ⟨nothing, right, empty⟩ := renames.exists_rewritesTo behind
  obtain rfl := List.map_eq_nil_iff.mp empty
  exact ⟨original, ⟨first, last, expanded, left, right⟩, rfl⟩

end IsRenaming

end Renaming

end Readings
