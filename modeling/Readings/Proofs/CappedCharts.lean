import Readings.Cache.Store
import Readings.Proofs.Extraction
import Readings.Proofs.ItemCaps

/-! The item caps of a configuration, as the caller of a parse meets them. They are passed exactly if the
chart without them is larger, and then by one item; nothing is read out of such a chart, and no cache
keeps it. A chart that stays within them is the one without them. -/

namespace Readings

/-- The construction of a chart, with the count that it kept. -/
def Chart.construct (grammar : Grammar) (config : ChartConfig) (tokens : Array Token) :
    ChartState × ChartOutcome :=
  ChartState.conclude (fillFrom grammar config tokens 0 tokens.size)
    (ChartState.initial.insertAll config 0
      ((grammar.rulesFor grammar.start).map fun rule => (Item.initial rule 0, Link.predicted)))

theorem Chart.build_eq (grammar : Grammar) (config : ChartConfig) (tokens : Array Token) :
    Chart.build grammar config tokens =
      { grammar := grammar.key, start := grammar.start,
        sets := (Chart.construct grammar config tokens).1.sets, tokenCount := tokens.size,
        outcome := (Chart.construct grammar config tokens).2 } := by
  simp only [Chart.build, Chart.construct]
  split
  next stopped =>
    rw [stopped]
    rfl
  next inserted =>
    rw [inserted]
    rfl

theorem Chart.totalItems_build (grammar : Grammar) (config : ChartConfig) (tokens : Array Token) :
    (Chart.build grammar config tokens).totalItems =
      (Chart.construct grammar config tokens).1.total := by
  have whole : ChartState.initial.Extends (Chart.construct grammar config tokens).1 :=
    ChartState.extends_conclude (ChartState.extends_insertAll _ _ _ _)
      (ChartState.extends_fillFrom _ _ _ _ _)
  rw [whole.total_eq, Chart.build_eq, Chart.totalItems, ChartState.itemCount, List.sum_eq_foldr]

theorem Chart.construct_agrees {narrow wide : ChartConfig} (narrower : narrow.IsNarrower wide)
    (grammar : Grammar) (tokens : Array Token) :
    ChartState.AgreesAtEnd narrow (Chart.construct grammar narrow tokens)
      (Chart.construct grammar wide tokens) := by
  have within : ChartState.initial.Within narrow := by
    refine ⟨fun position => ?_, Nat.zero_le _⟩
    have empty : setAt ChartState.initial.sets position = .empty := by cases position <;> rfl
    rw [empty]
    exact Nat.zero_le _
  exact conclude_agrees (insertAll_agrees narrower 0 within _)
    (fun _ after => fillFrom_agrees narrower grammar tokens 0 tokens.size after)
    (ChartState.extends_fillFrom _ _ _ _ _)

/-- The configuration with both item caps at the largest count. -/
def ChartConfig.uncapped (config : ChartConfig) : ChartConfig :=
  { config with maxItemsPerSet := countBound - 1, maxTotalItems := countBound - 1 }

/-- A chart with more items than the caps of a configuration allow, in one set or in all. -/
def Chart.Outgrows (config : ChartConfig) (chart : Chart) : Prop :=
  (∃ set ∈ chart.sets, config.maxItemsPerSet < set.size) ∨ config.maxTotalItems < chart.totalItems

/-- What the item caps of a configuration make of a chart that is full without them. -/
structure Chart.IsCapped (grammar : Grammar) (config : ChartConfig) (full chart : Chart) : Prop where
  exceeded_iff : chart.isLimitExceeded = true ↔ full.Outgrows config
  byOne : ∀ hit, chart.outcome = .limitExceeded hit → hit.items = hit.limit + 1 ∧
    (hit.limit = config.maxItemsPerSet ∧
        (∃ set, chart.sets[hit.position]? = some set ∧ set.size = hit.items) ∨
      hit.limit = config.maxTotalItems ∧ chart.totalItems = hit.items)
  unread : chart.isLimitExceeded = true → ∀ limit, chart.extract grammar limit = .ok ⟨[], false⟩
  unstored : chart.isLimitExceeded = true → ∀ (cache : SessionCache) (now : Duration)
    (key : GrammarKey) (tokens : List Token) (fingerprints : List Fingerprint) (selection : Selection),
    (cache.insert now key tokens fingerprints ⟨chart, selection⟩).2 = false ∧
      (cache.insert now key tokens fingerprints ⟨chart, selection⟩).1.entries = cache.entries
  otherwise : chart.isLimitExceeded = false → chart = full

variable {grammar : Grammar} {tokens : Array Token} {config wide : ChartConfig}

private theorem exists_set_iff {sets : Array ChartSet} {bound : Nat} :
    (∃ set ∈ sets, bound < set.size) ↔ ∃ position, bound < (setAt sets position).size := by
  constructor
  · intro large
    obtain ⟨set, member, more⟩ := large
    obtain ⟨position, inside, rfl⟩ := Array.mem_iff_getElem.mp member
    exact ⟨position, by simpa [setAt, inside] using more⟩
  · intro large
    obtain ⟨position, more⟩ := large
    by_cases inside : position < sets.size
    · exact ⟨sets[position], Array.getElem_mem inside, by simpa [setAt, inside] using more⟩
    · rw [setAt_of_size_le (Nat.not_lt.mp inside)] at more
      exact absurd more (Nat.not_lt_zero _)

private theorem outgrows_iff :
    (Chart.build grammar wide tokens).Outgrows config ↔
      ¬ (Chart.construct grammar wide tokens).1.Within config := by
  rw [Chart.Outgrows, Chart.totalItems_build, Chart.build_eq, exists_set_iff]
  constructor
  · intro large within
    rcases large with ⟨position, more⟩ | more
    · exact Nat.not_le.mpr more (within.sets position)
    · exact Nat.not_le.mpr more within.total
  · intro outside
    by_contra small
    rw [not_or, not_exists] at small
    exact outside ⟨fun position => Nat.not_lt.mp (small.1 position), Nat.not_lt.mp small.2⟩

theorem Chart.isLimitExceeded_iff {chart : Chart} :
    chart.isLimitExceeded = true ↔ ∃ hit, chart.outcome = .limitExceeded hit := by
  cases outcome : chart.outcome <;> simp [Chart.isLimitExceeded, outcome]

theorem ChartState.Exceeds.not_within {hit : LimitHit} {state other : ChartState}
    (exceeds : Exceeds config hit state) (further : state.Extends other) : ¬ other.Within config := by
  intro within
  obtain ⟨sets, total⟩ := further.grows
  have byOne := exceeds.byOne
  rcases exceeds.cap with ⟨limit, size⟩ | ⟨limit, size⟩
  · have grown := sets hit.position
    have bound := within.sets hit.position
    omega
  · have bound := within.total
    omega

private theorem isCapped_of_within {full : Chart} (small : ¬ full.Outgrows config)
    (quiet : ∀ hit, full.outcome ≠ .limitExceeded hit) : Chart.IsCapped grammar config full full := by
  have within : ¬ full.isLimitExceeded = true := fun exceeded =>
    (Chart.isLimitExceeded_iff.mp exceeded).elim quiet
  exact ⟨iff_of_false within small, fun hit stopped => absurd stopped (quiet hit),
    fun exceeded => absurd exceeded within, fun exceeded => absurd exceeded within, fun _ => rfl⟩

private theorem isCapped_of_stopped {chart full : Chart} {hit : LimitHit}
    (stopped : chart.outcome = .limitExceeded hit) (large : full.Outgrows config)
    (byOne : hit.items = hit.limit + 1 ∧
      (hit.limit = config.maxItemsPerSet ∧
          (∃ set, chart.sets[hit.position]? = some set ∧ set.size = hit.items) ∨
        hit.limit = config.maxTotalItems ∧ chart.totalItems = hit.items)) :
    Chart.IsCapped grammar config full chart := by
  have exceeded : chart.isLimitExceeded = true := Chart.isLimitExceeded_iff.mpr ⟨hit, stopped⟩
  have failure : chart.outcome ≠ .success := by simp [stopped]
  refine ⟨iff_of_true exceeded large, ?_, fun _ => Chart.extract_of_failure failure, ?_, ?_⟩
  · intro other same
    obtain rfl : hit = other := ChartOutcome.limitExceeded.inj (stopped.symm.trans same)
    exact byOne
  · intro _ cache now key tokens fingerprints selection
    simp only [SessionCache.insert, exceeded, ite_true, and_self]
  · intro quiet
    exact absurd exceeded (Bool.eq_false_iff.mp quiet)

private theorem getElem?_of_size {sets : Array ChartSet} {position size : Nat}
    (large : (setAt sets position).size = size + 1) :
    ∃ set, sets[position]? = some set ∧ set.size = size + 1 := by
  cases found : sets[position]? with
  | none => simp [setAt, Array.getD_eq_getD_getElem?, found, ChartSet.size, ChartSet.empty] at large
  | some set => exact ⟨set, rfl, by simpa [setAt, Array.getD_eq_getD_getElem?, found] using large⟩

theorem Chart.build_isCapped (narrower : config.IsNarrower wide) (grammar : Grammar)
    (tokens : Array Token) :
    Chart.IsCapped grammar config (Chart.build grammar wide tokens)
      (Chart.build grammar config tokens) := by
  have agrees := Chart.construct_agrees narrower grammar tokens
  have large : (Chart.build grammar wide tokens).Outgrows config ↔ _ := outgrows_iff
  have total := Chart.totalItems_build grammar config tokens
  have own := Chart.build_eq grammar config tokens
  have all := Chart.build_eq grammar wide tokens
  generalize Chart.construct grammar config tokens = result at agrees total own
  generalize Chart.construct grammar wide tokens = rest at agrees large all
  cases agrees with
  | alike within quiet =>
    rw [own.trans all.symm]
    exact isCapped_of_within (fun more => large.mp more within) (by simpa only [all] using quiet)
  | @stopped hit state _ exceeds further =>
    have sets : (Chart.build grammar config tokens).sets = state.sets := by rw [own]
    have stopped : (Chart.build grammar config tokens).outcome = .limitExceeded hit := by rw [own]
    apply isCapped_of_stopped stopped (large.mpr (exceeds.not_within further))
    rw [sets, total]
    have byOne := exceeds.byOne
    refine ⟨byOne, exceeds.cap.imp_left fun cap => ⟨cap.1, ?_⟩⟩
    rw [byOne] at cap ⊢
    exact getElem?_of_size cap.2

/-- The item caps are passed exactly by the charts that are larger, and change nothing else. -/
theorem caps_exact (grammar : Grammar) {config : ChartConfig} (sets : config.maxItemsPerSet < countBound)
    (total : config.maxTotalItems < countBound) (tokens : Array Token) :
    Chart.IsCapped grammar config (Chart.build grammar config.uncapped tokens)
      (Chart.build grammar config tokens) :=
  Chart.build_isCapped ⟨Nat.le_sub_one_of_lt sets, Nat.le_sub_one_of_lt total⟩ grammar tokens

theorem threeOnes_capped :
    (Chart.build sums { maxItemsPerSet := 3 } threeOnes).isLimitExceeded = true ∧
      Chart.IsCapped sums { maxItemsPerSet := 3 }
        (Chart.build sums (ChartConfig.uncapped { maxItemsPerSet := 3 }) threeOnes)
        (Chart.build sums { maxItemsPerSet := 3 } threeOnes) ∧
      (Chart.build sums {} threeOnes).isLimitExceeded = false ∧
      Chart.IsCapped sums {} (Chart.build sums (ChartConfig.uncapped {}) threeOnes)
        (Chart.build sums {} threeOnes) := by
  refine ⟨by decide +kernel, ?_, by decide +kernel, ?_⟩
  · exact caps_exact sums (by decide +kernel) (by decide +kernel) threeOnes
  · exact caps_exact sums (by decide +kernel) (by decide +kernel) threeOnes

end Readings
