import Readings.Cache.Basic
import Readings.Proofs.Repetitions

/-! What a parse sees of a token list. A chart depends on its tokens only through what the terminals say
about them, and that can be read off their fingerprints. So tokens look alike as far as the fingerprints
of two lists are the same. -/

namespace Readings

def Terminal.acceptsPrint (print : Fingerprint) : Terminal → Bool
  | .word text => print.text == text
  | .kind name => print.kind == name
  | .tag name => print.tags.contains name

theorem Terminal.accepts_eq (terminal : Terminal) (token : Token) :
    terminal.accepts token = terminal.acceptsPrint (Fingerprint.ofToken token) := by
  cases terminal with
  | word text => rfl
  | kind name => rfl
  | tag name =>
    rw [Bool.eq_iff_iff]
    simp only [accepts, acceptsPrint, Fingerprint.ofToken, Token.hasTag, List.contains_iff_mem,
      mem_eraseReps, List.mem_mergeSort]

def seen (tokens : Array Token) : List (Terminal → Bool) :=
  tokens.toList.map fun token terminal => terminal.accepts token

theorem seen_eq (tokens : List Token) :
    seen tokens.toArray = (Fingerprint.ofTokens tokens).map fun print terminal =>
      terminal.acceptsPrint print := by
  simp only [seen, Fingerprint.ofTokens, List.map_map]
  exact List.map_congr_left fun token _ => funext fun terminal => terminal.accepts_eq token

variable {tokens others : Array Token}

theorem size_of_seen (same : seen tokens = seen others) : tokens.size = others.size := by
  simpa [seen] using congrArg List.length same

theorem scans_eq (position : Nat) (item : Item) (terminal : Terminal) :
    scans tokens position item terminal =
      match (seen tokens)[position]? with
      | some accepts => if accepts terminal then [(item.advance, .scanned position)] else []
      | none => [] := by
  simp only [scans, seen, List.getElem?_map, Array.getElem?_toList]
  cases tokens[position]? <;> rfl

private theorem processItem_congr (same : seen tokens = seen others) (grammar : Grammar)
    (config : ChartConfig) : processItem grammar config tokens = processItem grammar config others := by
  funext position index state item
  simp only [processItem, scans_eq, same]

private theorem closeFrom_congr (same : seen tokens = seen others) (grammar : Grammar)
    (config : ChartConfig) (position fuel index : Nat) (state : ChartState) :
    closeFrom grammar config tokens position fuel index state =
      closeFrom grammar config others position fuel index state := by
  induction fuel generalizing index state with
  | zero => rfl
  | succ fuel ih => simp only [closeFrom, processItem_congr same, ih]

private theorem fillFrom_congr (same : seen tokens = seen others) (grammar : Grammar)
    (config : ChartConfig) (position left : Nat) (state : ChartState) :
    fillFrom grammar config tokens position left state =
      fillFrom grammar config others position left state := by
  induction left generalizing position state with
  | zero => rw [fillFrom, fillFrom, closeSet, closeSet, closeFrom_congr same]
  | succ left ih =>
    rw [fillFrom, fillFrom, closeSet, closeSet, closeFrom_congr same]
    simp only [ih]

theorem Chart.build_congr (same : seen tokens = seen others) (grammar : Grammar)
    (config : ChartConfig) : Chart.build grammar config tokens = Chart.build grammar config others := by
  simp only [Chart.build, fillFrom_congr same, size_of_seen same]

/-- Token lists with the same fingerprints have the same parse. -/
theorem Grammar.parse_congr {tokens others : List Token}
    (same : Fingerprint.ofTokens tokens = Fingerprint.ofTokens others) (grammar : Grammar)
    (config : ChartConfig) :
    grammar.parse config tokens.toArray = grammar.parse config others.toArray := by
  have alike : seen tokens.toArray = seen others.toArray := by rw [seen_eq, seen_eq, same]
  simp only [Grammar.parse, Chart.build_congr alike]

def AlikeUpTo (bound : Nat) (tokens others : Array Token) : Prop :=
  ∀ position < bound, (seen tokens)[position]? = (seen others)[position]?

theorem commonPrefix_le (prints others : List Fingerprint) :
    commonPrefix prints others ≤ prints.length ∧ commonPrefix prints others ≤ others.length := by
  induction prints generalizing others with
  | nil => exact ⟨Nat.zero_le _, Nat.zero_le _⟩
  | cons first prints ih =>
    cases others with
    | nil => exact ⟨Nat.zero_le _, Nat.zero_le _⟩
    | cons second others =>
      rw [commonPrefix]
      split
      · exact ⟨Nat.succ_le_succ (ih others).1, Nat.succ_le_succ (ih others).2⟩
      · exact ⟨Nat.zero_le _, Nat.zero_le _⟩

theorem take_commonPrefix (prints others : List Fingerprint) :
    prints.take (commonPrefix prints others) = others.take (commonPrefix prints others) := by
  induction prints generalizing others with
  | nil => simp [commonPrefix]
  | cons first prints ih =>
    cases others with
    | nil => simp [commonPrefix]
    | cons second others =>
      rw [commonPrefix]
      split
      next same => rw [List.take_succ_cons, List.take_succ_cons, same, ih others]
      next => rfl

theorem alikeUpTo_commonPrefix (tokens others : List Token) :
    AlikeUpTo (commonPrefix (Fingerprint.ofTokens tokens) (Fingerprint.ofTokens others))
      tokens.toArray others.toArray := by
  intro position before
  have same := congrArg (·[position]?)
    (take_commonPrefix (Fingerprint.ofTokens tokens) (Fingerprint.ofTokens others))
  simp only [List.getElem?_take_of_lt before] at same
  rw [seen_eq, seen_eq, List.getElem?_map, List.getElem?_map, same]

end Readings
