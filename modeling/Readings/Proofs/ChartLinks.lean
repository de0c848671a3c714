import Readings.Proofs.Recognition

/-! The links of a chart, as a reader of the chart finds them. Every link to an item says how the item
came from one with the dot a place before, also in a chart that a cap cut short; and in a chart that none
did, each item that waits has moved over each completion of what it waits for. -/

namespace Readings

def Chart.Holds (chart : Chart) (position : Nat) (item : Item) : Prop :=
  ∃ set, chart.sets[position]? = some set ∧ item ∈ set.items

theorem Chart.holds_iff {chart : Chart} {position : Nat} {item : Item} :
    chart.Holds position item ↔ item ∈ (setAt chart.sets position).items := by
  simp only [Holds, setAt, Array.getD_eq_getD_getElem?]
  cases chart.sets[position]? <;> simp

/-- What a link to an item of the set at a position says of the chart. Nothing was recognized of a rule
that was predicted; otherwise the last element in front of the dot was: a token, or a rule of a
symbol. -/
def Link.Explains (grammar : Grammar) (tokens : Array Token) (chart : Chart) (position : Nat)
    (item : Item) : Link → Prop
  | .predicted => item.dot = 0
  | .scanned place => ∃ before terminal token,
      item = before.advance ∧ position = place + 1 ∧ chart.Holds place before ∧
        before.next? grammar = some (.terminal terminal) ∧ tokens[place]? = some token ∧
        terminal.accepts token = true
  | .completed split child => ∃ before symbol,
      item = before.advance ∧ chart.Holds split before ∧
        before.next? grammar = some (.nonTerminal symbol) ∧ grammar.lhs? child = some symbol ∧
        chart.Holds position ⟨child, (grammar.rhs child).length, split⟩

/-- The links of a chart are those that its items and the tokens give rise to. -/
structure Chart.IsLinked (grammar : Grammar) (tokens : Array Token) (chart : Chart) : Prop where
  ordered : ∀ position item, chart.Holds position item → item.origin ≤ position
  short : ∀ position item, chart.Holds position item → item.dot ≤ (grammar.rhs item.rule).length
  distinct : ∀ position item, chart.Holds position item → (chart.links position item).Nodup
  explained : ∀ position item, chart.Holds position item →
    ∀ link ∈ chart.links position item, link.Explains grammar tokens chart position item
  /-- An item that waits where a completion starts has moved over it where the completion ends. -/
  complete : chart.isLimitExceeded = false → ∀ position waiter done symbol,
    chart.Holds done.origin waiter → waiter.next? grammar = some (.nonTerminal symbol) →
    chart.Holds position done → done.yields grammar symbol = true →
    chart.Holds position waiter.advance ∧
      .completed done.origin done.rule ∈ chart.links position waiter.advance

variable {grammar : Grammar} {tokens : Array Token}

theorem Justified.explains {chart : Chart} {position : Nat} {item : Item} {link : Link}
    (reason : Justified grammar tokens chart.sets position item link) :
    link.Explains grammar tokens chart position item := by
  cases reason with
  | predicted known wanted => rfl
  | scanned before next found accepted =>
    exact ⟨_, _, _, rfl, rfl, Chart.holds_iff.mpr before, next, found, accepted⟩
  | completed waiting next known done =>
    exact ⟨_, _, rfl, Chart.holds_iff.mpr waiting, next, known, Chart.holds_iff.mpr done⟩

theorem Chart.build_sound (grammar : Grammar) (config : ChartConfig) (tokens : Array Token) :
    Sound grammar tokens (Chart.build grammar config tokens).sets := by
  obtain ⟨result, settles, sets, -⟩ := build_settles grammar config tokens
  rw [sets]
  exact settles.grown.sound

theorem Saturated.moves_over {chart : Chart} (saturated : Saturated grammar tokens chart.sets)
    {position : Nat} {waiter done : Item} {symbol : Symbol} (waiting : chart.Holds done.origin waiter)
    (next : waiter.next? grammar = some (.nonTerminal symbol)) (held : chart.Holds position done)
    (yields : done.yields grammar symbol = true) :
    chart.Holds position waiter.advance ∧
      .completed done.origin done.rule ∈ chart.links position waiter.advance := by
  rw [Chart.holds_iff] at waiting held ⊢
  obtain ⟨whole, known⟩ := (saturated.sound.grounded position done held).yields_iff.mp yields
  rw [Chart.links_eq]
  have linked : .completed done.origin done.rule ∈
      (setAt chart.sets position).links waiter.advance := by
    apply (saturated.closed position).completes _ _ symbol waiter (whole ▸ held) known ?_ next
    split
    next same => exact same ▸ waiting
    next => exact waiting
  exact ⟨ChartSet.mem_items_of_link linked, linked⟩

/-- The links of a chart are right, and none is missing. -/
theorem chart_links_exact (grammar : Grammar) (config : ChartConfig) (tokens : Array Token) :
    (Chart.build grammar config tokens).IsLinked grammar tokens := by
  have sound := Chart.build_sound grammar config tokens
  have grounded : ∀ position item, (Chart.build grammar config tokens).Holds position item →
      Grounded grammar tokens (Chart.build grammar config tokens).sets position item :=
    fun position item held => sound.grounded position item (Chart.holds_iff.mp held)
  constructor
  · intro position item held
    exact (grounded position item held).ordered
  · intro position item held
    exact (grounded position item held).short
  · intro position item _
    rw [Chart.links_eq]
    exact sound.different position item
  · intro position item _ link linked
    rw [Chart.links_eq] at linked
    exact (sound.justified position item link linked).explains
  · intro within position waiter done symbol waiting next held yields
    exact (Chart.build_saturated within).1.moves_over waiting next held yields

/-- The mark that derives nothing is completed in the set in which it is waited for. -/
theorem hiddenMark_moved_over :
    (Chart.build sums {} threeOnes).isLimitExceeded = false ∧
      .completed 0 2 ∈ (Chart.build sums {} threeOnes).links 0 ⟨0, 1, 0⟩ := by
  have within : (Chart.build sums {} threeOnes).isLimitExceeded = false := by decide +kernel
  have waiting : (⟨0, 0, 0⟩ : Item) ∈ (setAt (Chart.build sums {} threeOnes).sets 0).items := by
    decide +kernel
  have done : (⟨2, 0, 0⟩ : Item) ∈ (setAt (Chart.build sums {} threeOnes).sets 0).items := by
    decide +kernel
  have moved := (chart_links_exact sums {} threeOnes).complete within 0 ⟨0, 0, 0⟩ ⟨2, 0, 0⟩ 1
    (Chart.holds_iff.mpr waiting) rfl (Chart.holds_iff.mpr done) rfl
  exact ⟨within, moved.2⟩

end Readings
