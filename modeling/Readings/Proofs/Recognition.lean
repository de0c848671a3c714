import Readings.Grammar.Build
import Readings.Proofs.ChartConstruction
import Mathlib.Data.List.Basic

/-! Recognition is exact. Along a tree of the tokens the closed sets hold every item with its dot moved
over the trees in front of it, and every item stands for such trees; so a chart that no cap cut short
succeeds exactly if the tokens have a tree. Nothing is asked of the grammar: it may be ambiguous,
left-recursive or nullable. -/

namespace Readings

/-- The link over a tree, from the item that waited for it to the item behind it. -/
def Tree.link : Tree → Link
  | .leaf token => .scanned token
  | .node rule _ span _ => .completed span.start rule

variable {grammar : Grammar} {tokens : Array Token} {sets : Array ChartSet}

mutual
theorem Saturated.link_mem (saturated : Saturated grammar tokens sets) {item : Item}
    {element start stop tree} (member : item ∈ (setAt sets start).items)
    (next : item.next? grammar = some element) :
    Derives grammar tokens element start stop tree →
      tree.link ∈ (setAt sets stop).links item.advance
  | .token found accepted => (saturated.closed start).scans item member _ _ next found accepted
  | @Derives.application _ _ rule symbol _ _ _ known below => by
    have initial := (saturated.closed start).predicts item member symbol rule next known
    have whole := saturated.moves 0 (ChartSet.mem_items_of_link initial) (List.append_nil _).symm below
    have done : Item.whole grammar rule start ∈ (setAt sets stop).items := by
      simpa only [Item.whole, Nat.zero_add, List.drop_zero] using whole
    apply (saturated.closed stop).completes start rule symbol item done known ?_ next
    split
    next same => exact same ▸ member
    next => exact member

theorem Saturated.moves (saturated : Saturated grammar tokens sets) {rule : RuleId} (dot : Nat)
    {origin : Nat} {elements start stop trees} {rest : List Element}
    (member : ⟨rule, dot, origin⟩ ∈ (setAt sets start).items)
    (shape : (grammar.rhs rule).drop dot = elements ++ rest) :
    DerivesAll grammar tokens elements start stop trees →
      ⟨rule, dot + elements.length, origin⟩ ∈ (setAt sets stop).items
  | .nil => member
  | @DerivesAll.cons _ _ element elements _ middle _ _ _ first others => by
    have next : Item.next? grammar ⟨rule, dot, origin⟩ = some element := by
      rw [Item.next?, ← List.head?_drop, shape]
      rfl
    have advanced := ChartSet.mem_items_of_link (saturated.link_mem member next first)
    have behind : (grammar.rhs rule).drop (dot + 1) = elements ++ rest := by
      rw [← List.tail_drop, shape]
      rfl
    have moved := saturated.moves (dot + 1) advanced behind others
    rw [List.length_cons, Nat.add_comm elements.length, ← Nat.add_assoc]
    exact moved
end

theorem Saturated.mem_of_derives (saturated : Saturated grammar tokens sets) {rule : RuleId} {dot : Nat}
    {origin position : Nat} {trees : List Tree}
    (rooted : Item.initial rule origin ∈ (setAt sets origin).items)
    (short : dot ≤ (grammar.rhs rule).length)
    (derived : DerivesAll grammar tokens ((grammar.rhs rule).take dot) origin position trees) :
    ⟨rule, dot, origin⟩ ∈ (setAt sets position).items := by
  have moved := saturated.moves 0 rooted (List.take_append_drop dot _).symm derived
  rwa [Nat.zero_add, List.drop_zero, List.length_take_of_le short] at moved

theorem Saturated.accepting_iff (saturated : Saturated grammar tokens sets) {rule : RuleId} :
    Item.whole grammar rule 0 ∈ (setAt sets tokens.size).items ∧
        grammar.lhs? rule = some grammar.start ↔
      ∃ children, Derives grammar tokens (.nonTerminal grammar.start) 0 tokens.size
        (.node rule grammar.start ⟨0, tokens.size⟩ children) := by
  constructor
  · intro whole
    obtain ⟨member, known⟩ := whole
    obtain ⟨children, derived⟩ := (saturated.sound.grounded _ _ member).derived
    simp only [Item.whole, List.take_length] at derived
    exact ⟨children, .application known derived⟩
  · intro tree
    obtain ⟨children, derived⟩ := tree
    cases derived with
    | application known below =>
      rw [← @List.take_length _ (grammar.rhs rule)] at below
      exact ⟨saturated.mem_of_derives (saturated.started rule known) (Nat.le_refl _) below, known⟩

theorem Sound.isAccepting_iff (sound : Sound grammar tokens sets) {item : Item}
    (member : item ∈ (setAt sets tokens.size).items) :
    Chart.isAccepting grammar item = true ↔
      item = Item.whole grammar item.rule 0 ∧ grammar.lhs? item.rule = some grammar.start := by
  simp only [Chart.isAccepting, Bool.and_eq_true, beq_iff_eq,
    (sound.grounded _ _ member).yields_iff]
  constructor
  · intro accepting
    obtain ⟨origin, whole, known⟩ := accepting
    exact ⟨origin ▸ whole, known⟩
  · intro recognized
    obtain ⟨whole, known⟩ := recognized
    have origin : item.origin = 0 := congrArg Item.origin whole
    exact ⟨origin, origin ▸ whole, known⟩

theorem Verdict.success_iff (saturated : Saturated grammar tokens sets) {outcome : ChartOutcome}
    (verdict : Verdict grammar tokens sets outcome) :
    outcome = .success ↔ ∃ derivation, IsReading grammar tokens derivation := by
  have accepts : ∀ derivation, IsReading grammar tokens derivation →
      ∃ item ∈ (setAt sets tokens.size).items, Chart.isAccepting grammar item = true := by
    intro derivation reading
    obtain ⟨rule, symbol, span, children⟩ := derivation
    have known : symbol = grammar.start ∧ span = ⟨0, tokens.size⟩ := by
      cases reading
      exact ⟨rfl, rfl⟩
    obtain ⟨rfl, rfl⟩ := known
    obtain ⟨member, known⟩ := saturated.accepting_iff.mpr ⟨children, reading⟩
    exact ⟨_, member, (saturated.sound.isAccepting_iff member).mpr ⟨rfl, known⟩⟩
  cases verdict with
  | success member accepting =>
    obtain ⟨whole, known⟩ := (saturated.sound.isAccepting_iff member).mp accepting
    obtain ⟨children, derived⟩ := saturated.accepting_iff.mp ⟨whole ▸ member, known⟩
    exact iff_of_true rfl ⟨⟨_, _, _, children⟩, derived⟩
  | stalled early empty =>
    apply iff_of_false nofun
    intro read
    obtain ⟨derivation, reading⟩ := read
    obtain ⟨item, member, -⟩ := accepts derivation reading
    rw [empty _ early] at member
    exact List.not_mem_nil member
  | unfinished none =>
    apply iff_of_false nofun
    intro read
    obtain ⟨derivation, reading⟩ := read
    obtain ⟨item, member, accepting⟩ := accepts derivation reading
    rw [none item member] at accepting
    cases accepting

/-- The sets of a chart that no cap cut short are saturated, and its outcome is theirs. -/
theorem Chart.build_saturated {config : ChartConfig}
    (within : (Chart.build grammar config tokens).isLimitExceeded = false) :
    Saturated grammar tokens (Chart.build grammar config tokens).sets ∧
      Verdict grammar tokens (Chart.build grammar config tokens).sets
        (Chart.build grammar config tokens).outcome := by
  obtain ⟨result, settles, sets, outcome⟩ := build_settles grammar config tokens
  rw [sets, outcome]
  apply settles.settled.resolve_left
  intro stopped
  obtain ⟨hit, exceeded⟩ := stopped
  simp [Chart.isLimitExceeded, outcome, exceeded] at within

theorem Chart.within_of_success {config : ChartConfig}
    (success : (Chart.build grammar config tokens).outcome = .success) :
    (Chart.build grammar config tokens).isLimitExceeded = false := by
  simp [Chart.isLimitExceeded, success]

/-- A parse that no cap cut short succeeds exactly if the tokens have a tree. -/
theorem success_iff_exists_tree (grammar : Grammar) (config : ChartConfig) (tokens : Array Token)
    (within : (Chart.build grammar config tokens).isLimitExceeded = false) :
    (Chart.build grammar config tokens).outcome = .success ↔
      ∃ tree, IsTreeOf grammar tokens tree := by
  obtain ⟨saturated, verdict⟩ := Chart.build_saturated within
  rw [verdict.success_iff saturated, exists_reading_iff]

/-- Sums that may be bracketed at will. The left recursion is hidden behind a symbol that derives
nothing. -/
def sumsDraft : GrammarDraft where
  key := ⟨"sums", "1"⟩
  start := some "sum"
  rules :=
    [⟨some "binary", "sum", [.nonTerminal "mark", .nonTerminal "sum", .kind "plus", .nonTerminal "sum"], 0,
        none, ""⟩,
      ⟨some "single", "sum", [.kind "one"], 0, none, ""⟩,
      ⟨some "unmarked", "mark", [], 0, none, ""⟩]

def sums : Grammar where
  key := ⟨"sums", "1"⟩
  start := 0
  rules :=
    #[⟨"binary", 0, [.nonTerminal 1, .nonTerminal 0, .terminal (.kind "plus"), .nonTerminal 0], 0, none,
        ""⟩,
      ⟨"single", 0, [.terminal (.kind "one")], 0, none, ""⟩,
      ⟨"unmarked", 1, [], 0, none, ""⟩]
  names := #["sum", "mark"]

theorem sumsDraft_builds : sumsDraft.build = .ok sums := by cbv

def threeOnes : Array Token :=
  #["one", "plus", "one", "plus", "one"].map fun kind =>
    { text := kind, kind, tags := [], span := .empty 0, merged := false }

/-- Three ones bracketed to the left, with a mark left out in front of each of the two sums. -/
def Derivation.leftSum : Derivation :=
  ⟨0, 0, ⟨0, 5⟩, [.node 2 1 ⟨0, 0⟩ [],
    .node 0 0 ⟨0, 3⟩ [.node 2 1 ⟨0, 0⟩ [], .node 1 0 ⟨0, 1⟩ [.leaf 0], .leaf 1,
      .node 1 0 ⟨2, 3⟩ [.leaf 2]],
    .leaf 3, .node 1 0 ⟨4, 5⟩ [.leaf 4]]⟩

/-- Three ones bracketed to the right. -/
def Derivation.rightSum : Derivation :=
  ⟨0, 0, ⟨0, 5⟩, [.node 2 1 ⟨0, 0⟩ [], .node 1 0 ⟨0, 1⟩ [.leaf 0], .leaf 1,
    .node 0 0 ⟨2, 5⟩ [.node 2 1 ⟨2, 2⟩ [], .node 1 0 ⟨2, 3⟩ [.leaf 2], .leaf 3,
      .node 1 0 ⟨4, 5⟩ [.leaf 4]]]⟩

theorem threeOnes_has_tree :
    (Chart.build sums {} threeOnes).isLimitExceeded = false ∧
      (Chart.build sums {} threeOnes).outcome = .success ∧ ∃ tree, IsTreeOf sums threeOnes tree := by
  have within : (Chart.build sums {} threeOnes).isLimitExceeded = false := by decide +kernel
  have success : (Chart.build sums {} threeOnes).outcome = .success := by decide +kernel
  exact ⟨within, success, (success_iff_exists_tree sums {} threeOnes within).mp success⟩

end Readings
