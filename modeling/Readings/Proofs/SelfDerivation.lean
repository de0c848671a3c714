import Readings.Proofs.SententialForms
import Readings.Proofs.UnitCycles
import Mathlib.Data.List.Chain

/-! Symbols that derive themselves. The nullable symbols are those that derive the empty form, and the
unit edges lead to the symbols that an expansion leaves alone; so a symbol derives itself exactly if the
unit edges lead from it back to it. The search follows edges only, and what it returns as a cycle is one;
if it returns none, ranks fall along all edges and no symbol comes back. -/

namespace Readings

open Relation (ReflTransGen TransGen)

variable {rules : List Rule}

theorem Element.Expands.exists_rule {element : Element} {elements : List Element}
    (known : Element.Expands rules element elements) :
    ∃ rule ∈ rules, element = .nonTerminal rule.lhs ∧ elements = rule.rhs := by
  cases known with
  | rule member => exact ⟨_, member, rfl, rfl⟩

section Nullable

theorem rewritesTo_nil_of_isNullable {all : List Rule} {known : List Symbol}
    (derive : ∀ symbol ∈ known, RewritesTo (Element.Expands all) [.nonTerminal symbol] [])
    {elements : List Element} (covered : elements.all (Element.isNullable known) = true) :
    RewritesTo (Element.Expands all) elements [] := by
  induction elements with
  | nil => exact RewritesTo.refl []
  | cons element elements ih =>
    simp only [List.all_cons, Bool.and_eq_true] at covered
    cases element with
    | terminal terminal => exact absurd covered.1 Bool.false_ne_true
    | nonTerminal symbol =>
      have member : symbol ∈ known := by simpa [Element.isNullable] using covered.1
      exact (derive symbol member).append (ih covered.2)

private theorem nullablePass_derives {rules all : List Rule} (inside : rules ⊆ all)
    {known : List Symbol}
    (derive : ∀ symbol ∈ known, RewritesTo (Element.Expands all) [.nonTerminal symbol] []) :
    ∀ symbol ∈ nullablePass rules known, RewritesTo (Element.Expands all) [.nonTerminal symbol] [] := by
  induction rules generalizing known with
  | nil => exact derive
  | cons rule rules ih =>
    simp only [List.cons_subset] at inside
    simp only [nullablePass]
    split
    · exact ih inside.2 derive
    · split
      next covered =>
        apply ih inside.2
        apply List.forall_mem_cons.mpr ⟨?_, derive⟩
        have expanded := RewritesTo.expand [] [] (Element.Expands.rule inside.1)
        rw [List.nil_append, List.append_nil] at expanded
        exact expanded.trans (rewritesTo_nil_of_isNullable derive covered)
      · exact ih inside.2 derive

private theorem nullableFrom_derives {fuel : Nat} {known : List Symbol}
    (derive : ∀ symbol ∈ known, RewritesTo (Element.Expands rules) [.nonTerminal symbol] []) :
    ∀ symbol ∈ nullableFrom rules fuel known,
      RewritesTo (Element.Expands rules) [.nonTerminal symbol] [] := by
  induction fuel generalizing known with
  | zero => exact derive
  | succ fuel ih =>
    simp only [nullableFrom]
    split
    · exact derive
    · exact ih (nullablePass_derives (List.Subset.refl _) derive)

mutual
private theorem Unfolds.isNullable {element : Element} {form : List Element} (empty : form = []) :
    Unfolds (Element.Expands rules) element form →
      element.isNullable (nullableSymbols rules) = true
  | .stay => absurd empty (List.cons_ne_nil _ _)
  | .expand known below => by
    obtain ⟨rule, member, rfl, same⟩ := known.exists_rule
    have covered := below.all_isNullable empty
    rw [same] at covered
    simpa [Element.isNullable] using nullableSymbols_closed rules rule member covered

private theorem UnfoldsAll.all_isNullable {elements form : List Element} (empty : form = []) :
    UnfoldsAll (Element.Expands rules) elements form →
      elements.all (Element.isNullable (nullableSymbols rules)) = true
  | .nil => rfl
  | .cons here there => by
    obtain ⟨first, rest⟩ := List.append_eq_nil_iff.mp empty
    simp only [List.all_cons, Bool.and_eq_true]
    exact ⟨here.isNullable first, there.all_isNullable rest⟩
end

theorem all_isNullable_iff {elements : List Element} :
    elements.all (Element.isNullable (nullableSymbols rules)) = true ↔
      RewritesTo (Element.Expands rules) elements [] := by
  constructor
  · exact rewritesTo_nil_of_isNullable (nullableFrom_derives (by simp))
  · intro derived
    exact (unfoldsAll_iff.mpr derived).all_isNullable rfl

end Nullable

section Edges

private theorem exists_around_of_mem_soleSymbols {nullable : List Symbol} {target : Symbol}
    {elements : List Element} {before : Bool} (member : target ∈ soleSymbols nullable before elements) :
    before = true ∧ ∃ front back, elements = front ++ .nonTerminal target :: back ∧
      front.all (Element.isNullable nullable) = true ∧
      back.all (Element.isNullable nullable) = true := by
  induction elements generalizing before with
  | nil => exact absurd member List.not_mem_nil
  | cons element elements ih =>
    rcases List.mem_append.mp member with here | later
    · cases element with
      | terminal terminal => exact absurd here List.not_mem_nil
      | nonTerminal symbol =>
        dsimp only at here
        split at here
        next alone =>
          obtain rfl := List.mem_singleton.mp here
          rw [Bool.and_eq_true] at alone
          exact ⟨alone.1, [], elements, rfl, rfl, alone.2⟩
        next => exact absurd here List.not_mem_nil
    · obtain ⟨first, front, back, rfl, left, right⟩ := ih later
      rw [Bool.and_eq_true] at first
      exact ⟨first.1, element :: front, back, rfl, by simp [left, first.2], right⟩

theorem mem_unitTargets_iff {symbol target : Symbol} :
    target ∈ unitTargets rules (nullableSymbols rules) symbol ↔
      LeavesAlone (Element.Expands rules) (.nonTerminal symbol) (.nonTerminal target) := by
  constructor
  · intro edge
    simp only [unitTargets, List.mem_eraseDups, List.mem_flatMap, List.mem_filter, beq_iff_eq] at edge
    obtain ⟨rule, ⟨member, rfl⟩, sole⟩ := edge
    obtain ⟨-, front, back, shape, before, behind⟩ := exists_around_of_mem_soleSymbols sole
    exact ⟨front, back, shape ▸ .rule member, all_isNullable_iff.mp before,
      all_isNullable_iff.mp behind⟩
  · intro alone
    obtain ⟨front, back, known, before, behind⟩ := alone
    obtain ⟨rule, member, same, shape⟩ := known.exists_rule
    cases same
    exact mem_unitTargets member shape.symm (all_isNullable_iff.mpr before)
      (all_isNullable_iff.mpr behind)

end Edges

section Walks
variable {α : Type} {edge : α → α → Prop}

/-- A list of vertices, each with an edge to the next, that ends where it begins. -/
structure IsClosedWalk (edge : α → α → Prop) (walk : List α) : Prop where
  long : 2 ≤ walk.length
  closed : walk.head? = walk.getLast?
  linked : walk.IsChain edge

theorem IsClosedWalk.returns {walk : List α} (circle : IsClosedWalk edge walk) :
    ∃ vertex, TransGen edge vertex vertex := by
  obtain ⟨long, closed, linked⟩ := circle
  match walk, long with
  | first :: second :: rest, _ =>
    rw [List.isChain_cons_cons] at linked
    have reach : ReflTransGen edge second ((second :: rest).getLast (List.cons_ne_nil _ _)) :=
      List.relationReflTransGen_of_exists_isChain_cons rest linked.2 rfl
    have last : (second :: rest).getLast (List.cons_ne_nil _ _) = first := by
      rw [List.head?_cons, List.getLast?_cons_cons, List.getLast?_eq_some_getLast (List.cons_ne_nil _ _)]
        at closed
      exact (Option.some.inj closed).symm
    rw [last] at reach
    exact ⟨first, TransGen.head' linked.1 reach⟩

theorem IsClosedWalk.map {β : Type} {other : β → β → Prop} {rename : α → β} {walk : List α}
    (circle : IsClosedWalk edge walk)
    (keeps : ∀ source target, edge source target → other (rename source) (rename target)) :
    IsClosedWalk other (walk.map rename) where
  long := by simpa using circle.long
  closed := by rw [List.head?_map, List.getLast?_map, circle.closed]
  linked := (List.isChain_map rename).mpr (circle.linked.imp keeps)

variable {edges : Symbol → List Symbol}

/-- The claim for the visit of one symbol with some fuel. -/
private def ReportsWalks (edges : Symbol → List Symbol) (fuel : Nat) : Prop :=
  ∀ path done symbol cycle, (path ++ [symbol]).IsChain (fun source target => target ∈ edges source) →
    visitSymbol edges fuel path done symbol = .error cycle →
      IsClosedWalk (fun source target => target ∈ edges source) cycle

private theorem visitSymbols_reports {fuel : Nat} (reports : ReportsWalks edges fuel)
    {path done targets cycle : List Symbol}
    (linked : ∀ target ∈ targets, (path ++ [target]).IsChain fun source target => target ∈ edges source)
    (result : visitSymbols edges fuel path done targets = .error cycle) :
    IsClosedWalk (fun source target => target ∈ edges source) cycle := by
  induction targets generalizing done with
  | nil =>
    simp only [visitSymbols] at result
    cases result
  | cons symbol targets ih =>
    simp only [List.forall_mem_cons] at linked
    simp only [visitSymbols] at result
    split at result
    next => exact ih linked.2 result
    next found visited =>
      cases result
      exact reports path done symbol _ linked.1 visited

private theorem exists_dropWhile {path : List Symbol} {symbol : Symbol} (known : symbol ∈ path) :
    ∃ rest, path.dropWhile (· != symbol) = symbol :: rest := by
  induction path with
  | nil => exact absurd known List.not_mem_nil
  | cons first path ih =>
    by_cases same : first = symbol
    · exact ⟨path, by simp [same]⟩
    · obtain ⟨rest, found⟩ := ih ((List.mem_cons.mp known).resolve_left (Ne.symm same))
      exact ⟨rest, by simpa [same] using found⟩

private theorem visitSymbol_reports (fuel : Nat) : ReportsWalks edges fuel := by
  induction fuel with
  | zero =>
    intro path done symbol cycle linked result
    simp only [visitSymbol] at result
    cases result
  | succ fuel ih =>
    intro path done symbol cycle linked result
    simp only [visitSymbol] at result
    split at result
    next => cases result
    next =>
      split at result
      next known =>
        -- The symbol closes the part of the path that begins with it.
        cases result
        obtain ⟨rest, begun⟩ := exists_dropWhile (by simpa using known)
        have whole : (path.takeWhile (· != symbol) ++ (path.dropWhile (· != symbol) ++ [symbol])).IsChain
            fun source target => target ∈ edges source := by
          rwa [← List.append_assoc, List.takeWhile_append_dropWhile]
        have ending := whole.right_of_append
        rw [begun] at ending ⊢
        exact ⟨by simp, by rw [List.getLast?_concat]; rfl, ending⟩
      next =>
        split at result
        next => cases result
        next found visited =>
          cases result
          apply visitSymbols_reports ih ?_ visited
          intro target edge
          apply linked.append (List.isChain_singleton target)
          intro last atEnd first here
          simp only [List.getLast?_append, List.getLast?_singleton, Option.some_or,
            Option.mem_def, Option.some.injEq, List.head?_cons] at atEnd here
          exact here ▸ atEnd ▸ edge

theorem unitCycle?_walk {cycle : List Symbol} (found : unitCycle? rules = some cycle) :
    IsClosedWalk (fun source target => target ∈ unitTargets rules (nullableSymbols rules) source)
      cycle := by
  simp only [unitCycle?] at found
  split at found
  next => cases found
  next walk visited =>
    cases found
    exact visitSymbols_reports (visitSymbol_reports _) (fun target _ => List.isChain_singleton target)
      visited

end Walks

def Element.height (rank : Symbol → Nat) : Element → Nat
  | .nonTerminal symbol => rank symbol + 1
  | .terminal _ => 0

private theorem LeavesAlone.height_lt {rank : Symbol → Nat} {bound : Nat}
    (ranked : Ranked rules rank bound) {element sole : Element}
    (alone : LeavesAlone (Element.Expands rules) element sole) :
    sole.height rank < element.height rank := by
  have expands := alone
  obtain ⟨front, back, known, -, -⟩ := expands
  obtain ⟨rule, -, rfl, -⟩ := known.exists_rule
  cases sole with
  | terminal terminal => exact Nat.succ_pos _
  | nonTerminal target =>
    have falls := ranked.falls rule.lhs target (mem_unitTargets_iff.mpr alone)
    exact Nat.succ_lt_succ falls

/-- The search finds no cycle exactly if no symbol derives itself alone. -/
theorem unitCycle?_eq_none_iff :
    unitCycle? rules = none ↔ ∀ symbol,
      ¬ TransGen (Rewrites (Element.Expands rules)) [.nonTerminal symbol] [.nonTerminal symbol] := by
  simp only [rewrites_alone_iff]
  constructor
  · intro acyclic symbol derived
    obtain ⟨rank, bound, ranked⟩ := exists_ranked acyclic
    have falls : ∀ {element sole : Element}, TransGen (LeavesAlone (Element.Expands rules)) element sole →
        sole.height rank < element.height rank := by
      intro element sole steps
      induction steps with
      | single step => exact step.height_lt ranked
      | tail _ step ih => exact Nat.lt_trans (step.height_lt ranked) ih
    exact Nat.lt_irrefl _ (falls derived)
  · intro acyclic
    cases found : unitCycle? rules with
    | none => rfl
    | some cycle =>
      obtain ⟨symbol, returns⟩ := (unitCycle?_walk found).returns
      refine absurd ?_ (acyclic symbol)
      exact TransGen.lift Element.nonTerminal (fun _ _ => mem_unitTargets_iff.mp) _ _ returns

end Readings
