import Readings.Proofs.ChartLinks
import Readings.Proofs.FirstReading
import Readings.Proofs.PackedForest

/-! Extraction and packing come to their end. Both ask for the parts of a thing before they have the thing,
and remember only what is finished. So what is being computed is a chain of requests, and no such chain
may come back to where it was. The chains are well-founded whatever the chart and whatever the
applications filed: what is not in the chart, or not filed, asks for nothing. -/

namespace Readings

variable {α : Type}

/-- Requests that end: no chain of them goes on forever, and on none does anything come twice. -/
structure Ends (requests : α → List α) : Prop where
  wellFounded : WellFounded fun target vertex => target ∈ requests vertex
  distinct : ∀ pending : List α,
    pending.IsChain (fun vertex target => target ∈ requests vertex) → pending.Nodup

theorem Ends.of_wellFounded {requests : α → List α}
    (wellFounded : WellFounded fun target vertex => target ∈ requests vertex) : Ends requests := by
  refine ⟨wellFounded, ?_⟩
  intro pending chain
  have below : pending.IsChain (Function.swap (Relation.TransGen
      fun target vertex => target ∈ requests vertex)) := chain.imp fun _ _ => .single
  refine (List.isChain_iff_pairwise.mp below).imp ?_
  intro vertex other path same
  subst same
  exact wellFounded.transGen.asymmetric _ _ path path

theorem Graded.acc {targets : α → Option (List α)} {inside : α → Prop} {height : α → Nat}
    (graded : Graded targets inside height) {vertex : α} (start : inside vertex) :
    Acc (fun target vertex => Leads targets vertex target) vertex := by
  induction fuel : height vertex using Nat.strongRecOn generalizing vertex with
  | ind bound ih =>
    subst fuel
    obtain ⟨next, known, falls⟩ := graded.falls vertex start
    constructor
    intro target leads
    obtain ⟨_, found, member⟩ := leads
    obtain rfl := Option.some.inj (known.symm.trans found)
    exact ih _ (falls target member).2 (falls target member).1 rfl

variable {grammar : Grammar} {tokens : Array Token} {chart : Chart}

theorem Chart.mem_milestones_of_source {milestone source : Milestone}
    (leads : source ∈ chart.sources grammar milestone) : milestone ∈ chart.milestones := by
  simp only [Chart.sources] at leads
  split at leads
  next => exact absurd leads List.not_mem_nil
  next =>
    obtain ⟨link, linked, -⟩ := List.mem_flatMap.mp leads
    rw [Chart.links_eq] at linked
    exact Chart.mem_milestones.mpr (ChartSet.mem_items_of_link linked)

theorem Sound.sources_end (sound : Sound grammar tokens chart.sets)
    (acyclic : unitCycle? grammar.rules.toList = none) : Ends (chart.sources grammar) := by
  obtain ⟨rank, bound, ranked⟩ := exists_ranked acyclic
  apply Ends.of_wellFounded
  refine Subrelation.wf ?_ (InvImage.wf (Milestone.weight grammar rank bound) wellFounded_lt)
  intro source milestone leads
  exact (sound.sources_lighter ranked (Chart.mem_milestones_of_source leads) leads).2

namespace Emission

variable {nodes : List Derivation} {filing : Filing}

private theorem acc_part {rank : Symbol → Nat} {bound : Nat}
    (ranked : Ranked grammar.rules.toList rank bound) (harvest : Harvest grammar tokens nodes)
    (filed : filing.FiledFrom nodes) (part : Part) :
    Acc (fun target vertex => target ∈ requires filing vertex) (ofPart part) := by
  cases part with
  | leaf token => exact ⟨_, fun _ leads => absurd leads List.not_mem_nil⟩
  | slot place =>
    by_cases known : ∃ node ∈ nodes, node.slot = place
    · have filedHere : (slot place).IsFiled tokens nodes := known
      simpa only [leads_iff, ofPart] using (graded ranked harvest filed).acc filedHere
    · constructor
      intro target leads
      obtain ⟨packing, listed, -⟩ := List.mem_map.mp leads
      obtain ⟨node, member, same, -⟩ := (filed place packing).mp listed
      exact absurd ⟨node, member, same⟩ known

theorem requires_end (acyclic : unitCycle? grammar.rules.toList = none)
    (harvest : Harvest grammar tokens nodes) (filed : filing.FiledFrom nodes) :
    Ends (requires filing) := by
  obtain ⟨rank, bound, ranked⟩ := exists_ranked acyclic
  have parts := acc_part ranked harvest filed
  have alternatives : ∀ place packing, Acc (fun target vertex => target ∈ requires filing vertex)
      (alternative place packing) := by
    intro place packing
    constructor
    intro target leads
    obtain ⟨part, -, rfl⟩ := List.mem_map.mp leads
    exact parts part
  refine Ends.of_wellFounded ⟨fun emission => ?_⟩
  cases emission with
  | leaf token => exact parts (.leaf token)
  | slot place => exact parts (.slot place)
  | alternative place packing => exact alternatives place packing

end Emission

/-- A derivation that some limit lets extraction read out of a chart. -/
def Chart.Extracts (chart : Chart) (grammar : Grammar) (derivation : Derivation) : Prop :=
  ∃ limit selection, chart.extract grammar limit = .ok selection ∧ derivation ∈ selection.derivations

private theorem reading_of_extracts {config : ChartConfig}
    (acyclic : unitCycle? grammar.rules.toList = none) {derivation : Derivation}
    (extracted : (Chart.build grammar config tokens).Extracts grammar derivation) :
    IsReading grammar tokens derivation := by
  obtain ⟨limit, selection, answered, member⟩ := extracted
  obtain ⟨known, selects⟩ := Chart.exists_selects acyclic config tokens limit
  obtain rfl := Except.ok.inj (selects.extracted.symm.trans answered)
  exact selects.readings derivation member

private theorem extract_ok {config : ChartConfig} (acyclic : unitCycle? grammar.rules.toList = none)
    (limit : Nat) :
    ∃ selection, (Chart.build grammar config tokens).extract grammar limit = .ok selection := by
  obtain ⟨selection, selects⟩ := Chart.exists_selects acyclic config tokens limit
  exact ⟨selection, selects.extracted⟩

private theorem ofDerivations_ok (acyclic : unitCycle? grammar.rules.toList = none)
    (short : tokens.size < countBound) {derivations : List Derivation}
    (readings : ∀ derivation ∈ derivations, IsReading grammar tokens derivation) :
    ∃ forest, Forest.ofDerivations grammar derivations tokens.size = .ok forest := by
  by_cases none : derivations = []
  · subst none
    exact ⟨_, rfl⟩
  · obtain ⟨forest, -, packed, -⟩ := exists_packed acyclic short none readings
    exact ⟨forest, packed⟩

/-- The requests of extraction end for every chart, and those of packing for all that is extracted; so
both have an answer. -/
theorem requests_end {draft : GrammarDraft} {grammar : Grammar} (built : draft.build = .ok grammar)
    (config : ChartConfig) (tokens : Array Token) :
    Ends ((Chart.build grammar config tokens).sources grammar) ∧
      (∀ limit, ∃ selection,
        (Chart.build grammar config tokens).extract grammar limit = .ok selection) ∧
      ∀ derivations : List Derivation,
        (∀ derivation ∈ derivations,
          (Chart.build grammar config tokens).Extracts grammar derivation) →
        Ends (Emission.requires (Filing.ofDerivations derivations)) ∧
          (tokens.size < countBound →
            ∃ forest, Forest.ofDerivations grammar derivations tokens.size = .ok forest) := by
  have acyclic := GrammarDraft.acyclic_of_build built
  refine ⟨(Chart.build_sound grammar config tokens).sources_end acyclic, extract_ok acyclic, ?_⟩
  intro derivations extracted
  have readings : ∀ derivation ∈ derivations, IsReading grammar tokens derivation :=
    fun derivation member => reading_of_extracts acyclic (extracted derivation member)
  exact ⟨Emission.requires_end acyclic (harvest_readings readings)
    (Filing.filedFrom_ofDerivations derivations), fun short => ofDerivations_ok acyclic short readings⟩

theorem threeOnes_requests_end :
    sumsDraft.build = .ok sums ∧ Ends ((Chart.build sums {} threeOnes).sources sums) ∧
      ∃ selection, (Chart.build sums {} threeOnes).extract sums 1 = .ok selection ∧
        Ends (Emission.requires (Filing.ofDerivations selection.derivations)) ∧
        ∃ forest, Forest.ofDerivations sums selection.derivations threeOnes.size = .ok forest := by
  obtain ⟨sources, answers, packs⟩ := requests_end sumsDraft_builds {} threeOnes
  obtain ⟨selection, extracted⟩ := answers 1
  obtain ⟨requires, packed⟩ := packs selection.derivations fun derivation member =>
    ⟨1, selection, extracted, member⟩
  exact ⟨sumsDraft_builds, sources, selection, extracted, requires, packed (by decide +kernel)⟩

end Readings
