import Readings.Grammar.Nullable
import Readings.Proofs.ParseTree
import Mathlib.Logic.Function.Iterate

/-! The nullable symbols hold every symbol that derives no tokens. A pass either finds the left side of
a further rule or leaves a set that is closed under the rules, so the passes do not run out. -/

namespace Readings

def IsClosed (rules : List Rule) (known : List Symbol) : Prop :=
  ∀ rule ∈ rules, rule.rhs.all (Element.isNullable known) = true → rule.lhs ∈ known

private theorem nullablePass_suffix (rules : List Rule) (known : List Symbol) :
    known <:+ nullablePass rules known := by
  induction rules generalizing known with
  | nil => exact List.suffix_rfl
  | cons rule rules ih =>
    simp only [nullablePass]
    split
    · exact ih known
    · split
      · exact (List.suffix_cons rule.lhs known).trans (ih _)
      · exact ih known

private theorem nullablePass_closed {rules : List Rule} {known : List Symbol}
    (stable : nullablePass rules known = known) : IsClosed rules known := by
  induction rules with
  | nil => exact fun _ member => absurd member List.not_mem_nil
  | cons rule rules ih =>
    intro other member covered
    simp only [nullablePass] at stable
    split at stable
    next found =>
      rcases List.mem_cons.mp member with rfl | member
      · simpa using found
      · exact ih stable other member covered
    next missing =>
      split at stable
      next covers =>
        have grown := (nullablePass_suffix rules (rule.lhs :: known)).length_le
        rw [stable, List.length_cons] at grown
        omega
      next uncovered =>
        rcases List.mem_cons.mp member with rfl | member
        · exact absurd covered uncovered
        · exact ih stable other member covered

private theorem nullablePass_nodup (rules : List Rule) {known : List Symbol} (distinct : known.Nodup) :
    (nullablePass rules known).Nodup := by
  induction rules generalizing known with
  | nil => exact distinct
  | cons rule rules ih =>
    simp only [nullablePass]
    split
    · exact ih distinct
    next missing =>
      split
      · exact ih (List.nodup_cons.mpr ⟨by simpa using missing, distinct⟩)
      · exact ih distinct

private theorem nullablePass_subset {rules : List Rule} {known all : List Symbol}
    (inside : known ⊆ all) (sides : rules.map (·.lhs) ⊆ all) : nullablePass rules known ⊆ all := by
  induction rules generalizing known with
  | nil => exact inside
  | cons rule rules ih =>
    simp only [List.map_cons, List.cons_subset] at sides
    simp only [nullablePass]
    split
    · exact ih inside sides.2
    · split
      · exact ih (List.cons_subset.mpr ⟨sides.1, inside⟩) sides.2
      · exact ih inside sides.2

/-- The passes that find something: each makes the set longer, and one more leaves it as it is. -/
structure IsSettledAfter (rules : List Rule) (known : List Symbol) (passes : Nat) : Prop where
  bounded : passes + known.length ≤ rules.length
  grows : ∀ earlier < passes, ((nullablePass rules)^[earlier] known).length <
    ((nullablePass rules)^[earlier + 1] known).length
  stable : nullablePass rules ((nullablePass rules)^[passes] known) = (nullablePass rules)^[passes] known

/-- A set of left sides settles once the passes that are left and the symbols found outnumber the
rules. -/
private theorem nullableFrom_settles {rules : List Rule} {fuel : Nat} {known : List Symbol}
    (distinct : known.Nodup) (sides : known ⊆ rules.map (·.lhs))
    (enough : rules.length < fuel + known.length) :
    ∃ passes, IsSettledAfter rules known passes ∧
      nullableFrom rules fuel known = (nullablePass rules)^[passes] known := by
  have bound := distinct.length_le_of_subset sides
  rw [List.length_map] at bound
  induction fuel generalizing known with
  | zero => omega
  | succ fuel ih =>
    have suffix := nullablePass_suffix rules known
    simp only [nullableFrom]
    split
    next same =>
      have stable := (suffix.eq_of_length same.symm).symm
      exact ⟨0, ⟨by omega, nofun, stable⟩, rfl⟩
    next grown =>
      have longer := suffix.length_le
      have after := nullablePass_nodup rules distinct
      have within := nullablePass_subset sides (List.Subset.refl _)
      have room := after.length_le_of_subset within
      rw [List.length_map] at room
      obtain ⟨passes, settled, reached⟩ := ih after within (by omega) room
      have bounded := settled.bounded
      refine ⟨passes + 1, ⟨by omega, ?_, settled.stable⟩, reached⟩
      intro earlier before
      cases earlier with
      | zero => exact Nat.lt_of_le_of_ne longer (Ne.symm grown)
      | succ earlier => exact settled.grows earlier (Nat.lt_of_succ_lt_succ before)

/-- The loop ends by itself, after no more passes than there are rules. -/
theorem nullableSymbols_settles (rules : List Rule) :
    ∃ passes, IsSettledAfter rules [] passes ∧
      nullableSymbols rules = (nullablePass rules)^[passes] [] :=
  nullableFrom_settles List.nodup_nil (List.nil_subset _) (by simp)

theorem nullableSymbols_closed (rules : List Rule) : IsClosed rules (nullableSymbols rules) := by
  obtain ⟨passes, settled, reached⟩ := nullableSymbols_settles rules
  rw [reached]
  exact nullablePass_closed settled.stable

variable {grammar : Grammar} {tokens : Array Token}

mutual
theorem Derives.isNullable {element start stop tree} (empty : start = stop) :
    Derives grammar tokens element start stop tree →
      element.isNullable (nullableSymbols grammar.rules.toList) = true
  | .token _ _ => absurd empty (Nat.ne_of_lt (Nat.lt_succ_self _))
  | .application known below => by
    obtain ⟨rule, found, rfl, same⟩ := Grammar.rule_of_lhs known
    have covered := below.all_isNullable empty
    rw [same] at covered
    have member : rule ∈ grammar.rules.toList := by
      simpa using Array.mem_of_getElem? found
    simpa [Element.isNullable] using nullableSymbols_closed _ rule member covered

theorem DerivesAll.all_isNullable {elements start stop trees} (empty : start = stop) :
    DerivesAll grammar tokens elements start stop trees →
      elements.all (Element.isNullable (nullableSymbols grammar.rules.toList)) = true
  | .nil => rfl
  | @DerivesAll.cons _ _ _ _ start middle stop _ _ first rest => by
    have before := first.le
    have behind := rest.le
    simp only [List.all_cons, Bool.and_eq_true]
    exact ⟨first.isNullable (by omega), rest.all_isNullable (by omega)⟩
end

end Readings
