import Readings.Proofs.SelfDerivation
import Readings.Proofs.ViablePrefixes

/-! The empty text. The passes over the rules settle on the symbols that derive nothing, and those are
the symbols with a tree that covers no tokens; so the start symbol is among them exactly if the empty
list of tokens parses. -/

namespace Readings

variable {grammar : Grammar}

theorem mem_nullableSymbols_iff {rules : List Rule} {symbol : Symbol} :
    symbol ∈ nullableSymbols rules ↔
      RewritesTo (Element.Expands rules) [.nonTerminal symbol] [] := by
  rw [← all_isNullable_iff]
  simp [Element.isNullable]

theorem Grammar.isNullable_iff_derives (tokens : Array Token) (position : Nat) {symbol : Symbol} :
    grammar.isNullable symbol = true ↔
      ∃ tree, Derives grammar tokens (.nonTerminal symbol) position position tree := by
  constructor
  · intro nullable
    have member : symbol ∈ nullableSymbols grammar.rules.toList := by
      simpa [Grammar.isNullable] using nullable
    exact (unfolds_iff.mpr (mem_nullableSymbols_iff.mp member)).exists_derives .nil
  · intro covered
    obtain ⟨tree, derived⟩ := covered
    exact derived.isNullable rfl

theorem exists_empty_reading_iff :
    (∃ derivation, IsReading grammar #[] derivation) ↔ grammar.isNullable grammar.start = true := by
  rw [Grammar.isNullable_iff_derives #[] 0]
  constructor
  · intro read
    obtain ⟨derivation, reading⟩ := read
    exact ⟨derivation.tree, reading⟩
  · intro covered
    obtain ⟨tree, derived⟩ := covered
    cases derived with
    | application known below => exact ⟨⟨_, _, _, _⟩, .application known below⟩

/-- The passes over the rules end by themselves, on exactly the symbols that derive the empty form; and
the start symbol is one of them exactly if the empty list of tokens parses, as long as no cap is hit. -/
theorem nullable_exact :
    (∀ rules : List Rule,
      (∃ passes, IsSettledAfter rules [] passes ∧
        nullableSymbols rules = (nullablePass rules)^[passes] []) ∧
      ∀ symbol, symbol ∈ nullableSymbols rules ↔
        RewritesTo (Element.Expands rules) [.nonTerminal symbol] []) ∧
    ∀ (grammar : Grammar) (config : ChartConfig),
      (Chart.build grammar config #[]).isLimitExceeded = false →
        (grammar.isNullable grammar.start = true ↔
          (Chart.build grammar config #[]).outcome = .success) := by
  constructor
  · intro rules
    exact ⟨nullableSymbols_settles rules, fun symbol => mem_nullableSymbols_iff⟩
  · intro grammar config within
    obtain ⟨saturated, verdict⟩ := Chart.build_saturated within
    rw [← exists_empty_reading_iff]
    exact (verdict.success_iff saturated).symm

/-- Rows of cells, all of them optional. The rules stand in the order that takes the most passes. -/
def rowsDraft : GrammarDraft where
  key := ⟨"rows", "1"⟩
  start := some "row"
  rules :=
    [⟨some "row", "row", [.nonTerminal "margin", .nonTerminal "cells"], 0, none, ""⟩,
      ⟨some "more", "cells", [.nonTerminal "cells", .kind "cell"], 0, none, ""⟩,
      ⟨some "none", "cells", [.nonTerminal "margin", .nonTerminal "margin"], 0, none, ""⟩,
      ⟨some "bare", "margin", [], 0, none, ""⟩]

def rows : Grammar where
  key := ⟨"rows", "1"⟩
  start := 0
  rules :=
    #[⟨"row", 0, [.nonTerminal 2, .nonTerminal 1], 0, none, ""⟩,
      ⟨"more", 1, [.nonTerminal 1, .terminal (.kind "cell")], 0, none, ""⟩,
      ⟨"none", 1, [.nonTerminal 2, .nonTerminal 2], 0, none, ""⟩,
      ⟨"bare", 2, [], 0, none, ""⟩]
  names := #["row", "cells", "margin"]

theorem rowsDraft_builds : rowsDraft.build = .ok rows := by cbv

theorem rows_parse_empty :
    rowsDraft.build = .ok rows ∧ rows.isNullable rows.start = true ∧
      (Chart.build rows {} #[]).isLimitExceeded = false ∧
      (Chart.build rows {} #[]).outcome = .success := by
  have nullable : rows.isNullable rows.start = true := by decide +kernel
  have within : (Chart.build rows {} #[]).isLimitExceeded = false := by decide +kernel
  exact ⟨rowsDraft_builds, nullable, within, (nullable_exact.2 rows {} within).mp nullable⟩

end Readings
