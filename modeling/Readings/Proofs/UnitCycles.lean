import Readings.Grammar.Build
import Readings.Proofs.NullableSymbols

/-! A grammar that was built has no unit cycle: its symbols can be ranked so that the rank falls along
every unit edge. The search leaves behind a list in which every symbol leads only to symbols behind it,
and a symbol's distance from the end of that list is its rank. -/

namespace Readings

def Settled (edges : Symbol → List Symbol) : List Symbol → Prop
  | [] => True
  | symbol :: settled => edges symbol ⊆ settled ∧ Settled edges settled

/-- The distance of a symbol from the end of a list; what is not in the list has none. -/
def rankIn : List Symbol → Symbol → Nat
  | [], _ => 0
  | first :: rest, symbol =>
    if symbol ∈ rest then rankIn rest symbol else if symbol = first then rest.length + 1 else 0

theorem rankIn_le (settled : List Symbol) (symbol : Symbol) :
    rankIn settled symbol ≤ settled.length := by
  induction settled with
  | nil => exact Nat.le_refl 0
  | cons first rest ih =>
    simp only [rankIn, List.length_cons]
    split
    · omega
    · split <;> omega

section Search
variable {edges : Symbol → List Symbol}

theorem Settled.closed {settled : List Symbol} (order : Settled edges settled) {symbol target : Symbol}
    (member : symbol ∈ settled) (edge : target ∈ edges symbol) : target ∈ settled := by
  induction settled with
  | nil => exact absurd member List.not_mem_nil
  | cons first rest ih =>
    rcases List.mem_cons.mp member with rfl | member
    · exact List.mem_cons_of_mem _ (order.1 edge)
    · exact List.mem_cons_of_mem _ (ih order.2 member)

theorem Settled.rank_lt {settled : List Symbol} (order : Settled edges settled)
    {symbol target : Symbol} (member : symbol ∈ settled) (edge : target ∈ edges symbol) :
    rankIn settled target < rankIn settled symbol := by
  induction settled with
  | nil => exact absurd member List.not_mem_nil
  | cons first rest ih =>
    by_cases behind : symbol ∈ rest
    · have found := order.2.closed behind edge
      simpa only [rankIn, behind, found, ite_true] using ih order.2 behind
    · obtain rfl : symbol = first := (List.mem_cons.mp member).resolve_right behind
      have found := order.1 edge
      have bound := rankIn_le rest target
      simp only [rankIn, found, behind, ite_true, ite_false]
      omega

/-- A path that the search can still follow: it holds different symbols, and fuel is left for the
symbols that it does not hold. -/
structure Ready (vertices : List Symbol) (fuel : Nat) (path : List Symbol) : Prop where
  distinct : path.Nodup
  inside : path ⊆ vertices
  enough : vertices.length + 2 ≤ path.length + fuel

/-- What a search that met no cycle leaves behind. -/
structure Explored (edges : Symbol → List Symbol) (done targets found : List Symbol) : Prop where
  settled : Settled edges found
  keeps : done ⊆ found
  covers : targets ⊆ found

/-- The claim for the visit of one symbol with some fuel. -/
private def Visits (edges : Symbol → List Symbol) (vertices : List Symbol) (fuel : Nat) : Prop :=
  ∀ path done symbol found, Ready vertices fuel path → Settled edges done →
    visitSymbol edges fuel path done symbol = .ok found → Explored edges done [symbol] found

private theorem visitSymbols_explores {vertices : List Symbol} {fuel : Nat}
    (visits : Visits edges vertices fuel) {path done targets found : List Symbol}
    (ready : targets ≠ [] → Ready vertices fuel path) (settled : Settled edges done)
    (result : visitSymbols edges fuel path done targets = .ok found) :
    Explored edges done targets found := by
  induction targets generalizing done with
  | nil =>
    simp only [visitSymbols, Except.ok.injEq] at result
    subst result
    exact ⟨settled, List.Subset.refl _, List.nil_subset _⟩
  | cons symbol targets ih =>
    have fit := ready (List.cons_ne_nil _ _)
    simp only [visitSymbols] at result
    split at result
    next middle visited =>
      have first := visits path done symbol middle fit settled visited
      have rest := ih (fun _ => fit) first.settled result
      refine ⟨rest.settled, List.Subset.trans first.keeps rest.keeps, ?_⟩
      exact List.cons_subset.mpr ⟨rest.keeps (first.covers (by simp)), rest.covers⟩
    next => cases result

private theorem visitSymbol_explores {vertices : List Symbol}
    (sources : ∀ symbol, edges symbol ≠ [] → symbol ∈ vertices) (fuel : Nat) :
    Visits edges vertices fuel := by
  induction fuel with
  | zero =>
    intro path done symbol found ready
    have bound := ready.distinct.length_le_of_subset ready.inside
    have enough := ready.enough
    omega
  | succ fuel ih =>
    intro path done symbol found ready settled result
    simp only [visitSymbol] at result
    split at result
    next known =>
      cases result
      exact ⟨settled, List.Subset.refl _, by simpa using known⟩
    next unknown =>
      split at result
      next => cases result
      next fresh =>
        split at result
        next middle visited =>
          cases result
          have follows : edges symbol ≠ [] → Ready vertices fuel (path ++ [symbol]) := by
            intro leads
            constructor
            · simpa [List.nodup_append, ready.distinct] using fun a member same =>
                fresh (by simpa [same] using member)
            · exact List.append_subset.mpr ⟨ready.inside, by simpa using sources symbol leads⟩
            · have enough := ready.enough
              simp only [List.length_append, List.length_singleton]
              omega
          have below := visitSymbols_explores ih follows settled visited
          refine ⟨⟨below.covers, below.settled⟩, ?_, by simp⟩
          exact List.Subset.trans below.keeps (List.subset_cons_self _ _)
        next => cases result

end Search

theorem mem_soleSymbols {nullable : List Symbol} {symbol : Symbol} {front back : List Element}
    (before : front.all (Element.isNullable nullable) = true)
    (behind : back.all (Element.isNullable nullable) = true) :
    symbol ∈ soleSymbols nullable true (front ++ .nonTerminal symbol :: back) := by
  induction front with
  | nil => simp [soleSymbols, behind]
  | cons element front ih =>
    simp only [List.all_cons, Bool.and_eq_true] at before
    simp only [List.cons_append, soleSymbols, before.1, Bool.and_true, List.mem_append]
    exact Or.inr (ih before.2)

theorem mem_unitTargets {rules : List Rule} {nullable : List Symbol} {rule : Rule} {symbol : Symbol}
    {front back : List Element} (member : rule ∈ rules)
    (shape : rule.rhs = front ++ .nonTerminal symbol :: back)
    (before : front.all (Element.isNullable nullable) = true)
    (behind : back.all (Element.isNullable nullable) = true) :
    symbol ∈ unitTargets rules nullable rule.lhs := by
  simp only [unitTargets, List.mem_eraseDups, List.mem_flatMap, List.mem_filter, beq_iff_eq]
  exact ⟨rule, ⟨member, rfl⟩, shape ▸ mem_soleSymbols before behind⟩

private theorem source_is_side {rules : List Rule} {nullable : List Symbol} {symbol : Symbol}
    (leads : unitTargets rules nullable symbol ≠ []) :
    symbol ∈ (rules.map (·.lhs)).eraseDups := by
  obtain ⟨target, member⟩ := List.exists_mem_of_ne_nil _ leads
  simp only [unitTargets, List.mem_eraseDups, List.mem_flatMap, List.mem_filter, beq_iff_eq] at member
  obtain ⟨rule, ⟨known, rfl⟩, -⟩ := member
  exact List.mem_eraseDups.mpr (List.mem_map.mpr ⟨rule, known, rfl⟩)

/-- Ranks below a bound that fall along every unit edge. -/
structure Ranked (rules : List Rule) (rank : Symbol → Nat) (bound : Nat) : Prop where
  below : ∀ symbol, rank symbol < bound
  falls : ∀ symbol target, target ∈ unitTargets rules (nullableSymbols rules) symbol →
    rank target < rank symbol

theorem exists_ranked {rules : List Rule} (acyclic : unitCycle? rules = none) :
    ∃ rank bound, Ranked rules rank bound := by
  simp only [unitCycle?] at acyclic
  split at acyclic
  next done visited =>
    have ready : Ready (rules.map (·.lhs)).eraseDups
        ((rules.map (·.lhs)).eraseDups.length + 2) [] :=
      ⟨List.nodup_nil, List.nil_subset _, by simp⟩
    have settled : Settled (unitTargets rules (nullableSymbols rules)) [] := trivial
    have explored := visitSymbols_explores (visitSymbol_explores (fun _ => source_is_side) _)
      (fun _ => ready) settled visited
    refine ⟨rankIn done, done.length + 1, fun symbol => Nat.lt_succ_of_le (rankIn_le done symbol), ?_⟩
    intro symbol target edge
    have member := explored.covers (source_is_side (List.ne_nil_of_mem edge))
    exact explored.settled.rank_lt member edge
  next => cases acyclic

theorem GrammarDraft.acyclic_of_build {draft : GrammarDraft} {grammar : Grammar}
    (built : draft.build = .ok grammar) : unitCycle? grammar.rules.toList = none := by
  simp only [GrammarDraft.build] at built
  repeat' split at built
  all_goals cases built
  next acyclic => simpa using acyclic

end Readings
