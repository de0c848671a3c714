import Readings.Proofs.Answers
import Readings.Score.Ranking

/-! Rankings as stable sorts. A derivation has a score if its rules are in the grammar, and every derivation
keeps its score and its place in the list through the sort and the numbering. Sorting by score is sorting
by score and place, for the places ascend before it. -/

namespace Readings

def Derivation.IsOf (grammar : Grammar) (derivation : Derivation) : Prop :=
  ∀ node ∈ derivation.nodes, ∃ rule, grammar.rule node.rule = .ok rule

/-! ### The order of doubles -/

theorem toNat_and_magnitude (bits : UInt64) :
    (bits &&& 0x7FFFFFFFFFFFFFFF).toNat = bits.toNat % 0x8000000000000000 := by
  rw [UInt64.toNat_and]
  exact Nat.and_two_pow_sub_one_eq_mod _ 63

theorem shiftRight_eq_one_iff (bits : UInt64) : bits >>> 63 = 1 ↔ 0x8000000000000000 ≤ bits.toNat := by
  have small := bits.toNat_lt
  have shifted : (bits >>> 63).toNat = bits.toNat / 0x8000000000000000 := by
    rw [UInt64.toNat_shiftRight]
    exact Nat.shiftRight_eq_div_pow _ _
  rw [← UInt64.toNat_inj, shifted, UInt64.toNat_one]
  omega

theorem Decimal.orderKey_inj {x y : Float} : orderKey x = orderKey y ↔ x.toBits = y.toBits := by
  refine ⟨fun same => ?_, fun same => by rw [orderKey, orderKey, isNegative, isNegative, same]⟩
  have first := x.toBits.toNat_lt
  have second := y.toBits.toNat_lt
  simp only [orderKey, isNegative, toNat_and_magnitude, beq_iff_eq, shiftRight_eq_one_iff] at same
  rw [← UInt64.toNat_inj]
  split at same <;> split at same <;> omega

namespace Scorer

variable {scorer : Scorer} {grammar : Grammar} {tokens : List Token} {discourse : Option Discourse}

/-! ### Scores -/

theorem exists_scoreOne_iff {derivation : Derivation} {index : Nat} :
    (∃ scored, scorer.scoreOne grammar tokens discourse derivation index = .ok scored) ↔
      derivation.IsOf grammar := by
  constructor
  · rintro ⟨scored, answered⟩ node member
    obtain ⟨evidence, gathered, -⟩ := bind_eq_ok_iff.mp answered
    obtain ⟨applications, found, -⟩ := bind_eq_ok_iff.mp gathered
    obtain ⟨application, answered⟩ := answered_of_mapM_ok found member
    obtain ⟨rule, known, -⟩ := bind_eq_ok_iff.mp answered
    exact ⟨rule, known⟩
  · intro known
    obtain ⟨applications, found⟩ : ∃ applications, derivation.nodes.mapM (fun node => do
        return Application.mk node (← grammar.rule node.rule)) = .ok applications := by
      apply exists_mapM_ok
      intro node member
      obtain ⟨rule, answered⟩ := known node member
      exact ⟨⟨node, rule⟩, by rw [answered]; rfl⟩
    simp only [scoreOne, Evidence.ofDerivation, found]
    exact ⟨_, rfl⟩

theorem exists_scoreAll_iff {derivations : List Derivation} :
    (∃ scored, scorer.scoreAll grammar tokens discourse derivations = .ok scored) ↔
      ∀ derivation ∈ derivations, derivation.IsOf grammar := by
  constructor
  · rintro ⟨scored, answered⟩ derivation member
    obtain ⟨index, inside, rfl⟩ := List.getElem_of_mem member
    have listed : (derivations[index], index) ∈ derivations.zipIdx := by
      rw [List.mk_mem_zipIdx_iff_getElem?]
      exact List.getElem?_eq_getElem inside
    exact exists_scoreOne_iff.mp (answered_of_mapM_ok answered listed)
  · intro known
    apply exists_mapM_ok
    rintro ⟨derivation, index⟩ member
    exact exists_scoreOne_iff.mpr (known derivation (List.fst_mem_of_mem_zipIdx member))

theorem exists_rank_iff {derivations : List Derivation} :
    (∃ ranking, scorer.rank grammar discourse derivations tokens = .ok ranking) ↔
      ∀ derivation ∈ derivations, derivation.IsOf grammar := by
  constructor
  · rintro ⟨ranking, answered⟩
    obtain ⟨scored, found, -⟩ := bind_eq_ok_iff.mp answered
    exact exists_scoreAll_iff.mp ⟨scored, found⟩
  · intro known
    obtain ⟨scored, found⟩ := exists_scoreAll_iff.mpr known
    exact ⟨_, bind_eq_ok_iff.mpr ⟨scored, found, rfl⟩⟩

theorem derivation_of_scoreOne {derivation : Derivation} {index : Nat} {scored : Scored}
    (answered : scorer.scoreOne grammar tokens discourse derivation index = .ok scored) :
    scored.derivation = index := by
  obtain ⟨evidence, -, made⟩ := bind_eq_ok_iff.mp answered
  cases made
  rfl

theorem map_derivation_of_scoreAll {derivations : List Derivation} {scored : List Scored}
    (answered : scorer.scoreAll grammar tokens discourse derivations = .ok scored) :
    scored.map (·.derivation) = List.range derivations.length := by
  have each := forall₂_of_mapM_ok answered
  have places : derivations.zipIdx.map Prod.snd = scored.map (·.derivation) := by
    rw [← List.forall₂_eq_eq_eq, List.forall₂_map_left_iff, List.forall₂_map_right_iff]
    exact each.imp fun entry scored found => (derivation_of_scoreOne found).symm
  rw [← places, List.zipIdx_map_snd, List.range_eq_range']

/-- Every score is that of the derivation at its place. -/
theorem scoreOne_of_mem {derivations : List Derivation} {all : List Scored}
    (answered : scorer.scoreAll grammar tokens discourse derivations = .ok all) {scored : Scored}
    (member : scored ∈ all) : ∃ derivation ∈ derivations[scored.derivation]?,
      scorer.scoreOne grammar tokens discourse derivation scored.derivation = .ok scored := by
  obtain ⟨⟨derivation, index⟩, listed, found⟩ := (mem_of_mapM_ok answered).mp member
  obtain rfl := derivation_of_scoreOne found
  exact ⟨derivation, List.mk_mem_zipIdx_iff_getElem?.mp listed, found⟩

/-! ### Sorting -/

/-- Not below another score in the total order of doubles. -/
def isAtLeast (first second : Scored) : Bool := Decimal.atMost second.score first.score

theorem isAtLeast_iff {first second : Scored} : isAtLeast first second = true ↔
    Decimal.orderKey second.score ≤ Decimal.orderKey first.score := decide_eq_true_iff

theorem isAtLeast_trans (first second third : Scored) (above : isAtLeast first second = true)
    (below : isAtLeast second third = true) : isAtLeast first third = true :=
  isAtLeast_iff.mpr (Int.le_trans (isAtLeast_iff.mp below) (isAtLeast_iff.mp above))

theorem isAtLeast_total (first second : Scored) :
    (isAtLeast first second || isAtLeast second first) = true := by
  rw [Bool.or_eq_true, isAtLeast_iff, isAtLeast_iff]
  exact Int.le_total _ _

/-- A higher score, or the same one at an earlier place. -/
def Outranks (first second : Scored) : Prop :=
  Decimal.orderKey second.score < Decimal.orderKey first.score ∨
    first.score.toBits = second.score.toBits ∧ first.derivation < second.derivation

theorem derivation_of_mem_zipIdx {scored : List Scored} {count : Nat}
    (places : scored.map (·.derivation) = List.range count) {entry : Scored × Nat}
    (member : entry ∈ scored.zipIdx) : entry.1.derivation = entry.2 := by
  obtain ⟨inside, found⟩ := List.getElem?_eq_some_iff.mp (List.mem_zipIdx_iff_getElem?.mp member)
  have lengths : scored.length = count := by simpa using congrArg List.length places
  have place := congrArg (·[entry.2]?) places
  simpa [List.getElem?_range (lengths ▸ inside), inside, found] using place

theorem higher_or_of_zipIdxLE {first second : Scored × Nat}
    (le : List.zipIdxLE isAtLeast first second = true) :
    Decimal.orderKey second.1.score < Decimal.orderKey first.1.score ∨
      first.1.score.toBits = second.1.score.toBits ∧ first.2 ≤ second.2 := by
  simp only [List.zipIdxLE, isAtLeast_iff] at le
  split at le
  next above =>
    split at le
    next below =>
      exact .inr ⟨Decimal.orderKey_inj.mp (Int.le_antisymm below above), of_decide_eq_true le⟩
    next lower => exact .inl (Int.not_le.mp lower)
  next => cases le

theorem pairwise_outranks {scored : List Scored} {count : Nat}
    (places : scored.map (·.derivation) = List.range count) :
    (scored.mergeSort isAtLeast).Pairwise Outranks := by
  have distinct : (scored.mergeSort isAtLeast).Pairwise fun first second =>
      first.derivation ≠ second.derivation := by
    have sorted := (List.mergeSort_perm scored isAtLeast).map (·.derivation)
    rw [places] at sorted
    exact List.pairwise_map.mp (sorted.nodup_iff.mpr List.nodup_range)
  have ordered : (scored.mergeSort isAtLeast).Pairwise fun first second =>
      Decimal.orderKey second.score < Decimal.orderKey first.score ∨
        first.score.toBits = second.score.toBits ∧ first.derivation ≤ second.derivation := by
    rw [← List.mergeSort_zipIdx, List.pairwise_map]
    refine (List.pairwise_mergeSort (List.zipIdxLE_trans isAtLeast_trans)
      (List.zipIdxLE_total isAtLeast_total) scored.zipIdx).imp_of_mem ?_
    intro first second former latter le
    rw [derivation_of_mem_zipIdx places ((List.mergeSort_perm _ _).mem_iff.mp former),
      derivation_of_mem_zipIdx places ((List.mergeSort_perm _ _).mem_iff.mp latter)]
    exact higher_or_of_zipIdxLE le
  refine (ordered.and distinct).imp ?_
  rintro first second ⟨higher | ⟨same, earlier⟩, others⟩
  · exact .inl higher
  · exact .inr ⟨same, Nat.lt_of_le_of_ne earlier others⟩

/-- One confidence and one answer on whether to ask stand beside all the scores, sorted and numbered. -/
theorem rankScored_cases (config : ScoringConfig) (scored : List Scored) :
    scored = [] ∧ rankScored config scored = .empty ∨
      ∃ confidence needsClarification, rankScored config scored =
        ⟨(scored.mergeSort isAtLeast).zipIdx.map fun (scored, index) =>
          ⟨index + 1, scored, confidence, needsClarification⟩, confidence, needsClarification⟩ := by
  have sorted := List.mergeSort_perm scored isAtLeast
  rw [rankScored]
  split
  next none =>
    have none : scored.mergeSort isAtLeast = [] := none
    exact .inl ⟨by simpa [none] using sorted, rfl⟩
  next first rest some =>
    have some : scored.mergeSort isAtLeast = first :: rest := some
    exact .inr ⟨_, _, by rw [some]⟩

theorem map_scored_rankScored (config : ScoringConfig) (scored : List Scored) :
    (rankScored config scored).parses.map (·.scored) = scored.mergeSort isAtLeast := by
  obtain ⟨rfl, made⟩ | ⟨_, _, made⟩ := rankScored_cases config scored
  · rw [made, List.mergeSort_nil]
    rfl
  · rw [made, List.map_map]
    exact List.zipIdx_map_fst 0 _

theorem map_rank_rankScored (config : ScoringConfig) (scored : List Scored) :
    (rankScored config scored).parses.map (·.rank) = List.range' 1 scored.length := by
  obtain ⟨rfl, made⟩ | ⟨_, _, made⟩ := rankScored_cases config scored
  · rw [made]
    rfl
  · have numbers : ((scored.mergeSort isAtLeast).zipIdx.map Prod.snd).map (1 + ·) =
        List.range' 1 scored.length := by
      rw [List.zipIdx_map_snd, List.length_mergeSort, List.map_add_range']
    rw [made, ← numbers, List.map_map, List.map_map]
    exact List.map_congr_left fun entry _ => Nat.add_comm entry.2 1

theorem agreed_of_mem_rankScored {config : ScoringConfig} {scored : List Scored} {parse : RankedParse}
    (member : parse ∈ (rankScored config scored).parses) :
    parse.confidence = (rankScored config scored).confidence ∧
      parse.needsClarification = (rankScored config scored).needsClarification := by
  obtain ⟨rfl, made⟩ | ⟨_, _, made⟩ := rankScored_cases config scored
  · rw [made] at member
    cases member
  · rw [made] at member ⊢
    obtain ⟨entry, -, rfl⟩ := List.mem_map.mp member
    exact ⟨rfl, rfl⟩

theorem rank_perm {derivations : List Derivation} {ranking : Ranking}
    (answered : scorer.rank grammar discourse derivations tokens = .ok ranking) :
    (ranking.parses.map (·.scored.derivation)).Perm (List.range derivations.length) := by
  obtain ⟨scored, found, made⟩ := bind_eq_ok_iff.mp answered
  cases made
  have sorted := List.mergeSort_perm scored isAtLeast
  rw [← map_scored_rankScored scorer.config] at sorted
  rw [← map_derivation_of_scoreAll found]
  simpa only [List.map_map] using! sorted.map (·.derivation)

end Scorer

/-- The ranks count from one, each derivation is there once with the score that it has on its own, and the
scores are sorted, equal ones as the derivations are. -/
structure Ranking.IsStable (scorer : Scorer) (grammar : Grammar) (tokens : List Token)
    (discourse : Option Discourse) (derivations : List Derivation) (ranking : Ranking) : Prop where
  ranks : ranking.parses.map (·.rank) = List.range' 1 derivations.length
  places : (ranking.parses.map (·.scored.derivation)).Perm (List.range derivations.length)
  scored : ∀ parse ∈ ranking.parses, ∃ derivation ∈ derivations[parse.scored.derivation]?,
    scorer.scoreOne grammar tokens discourse derivation parse.scored.derivation = .ok parse.scored
  sorted : ranking.parses.Pairwise fun first second => Scorer.Outranks first.scored second.scored
  confidence : ∀ parse ∈ ranking.parses, parse.confidence = ranking.confidence
  clarification : ∀ parse ∈ ranking.parses, parse.needsClarification = ranking.needsClarification
  nothing : derivations = [] → ranking.parses = [] ∧ ranking.needsClarification = true

namespace Scorer

variable {scorer : Scorer} {grammar : Grammar} {tokens : List Token} {discourse : Option Discourse}
  {derivations : List Derivation} {ranking : Ranking}

theorem isStable_rank (answered : scorer.rank grammar discourse derivations tokens = .ok ranking) :
    ranking.IsStable scorer grammar tokens discourse derivations := by
  have places := rank_perm answered
  obtain ⟨scored, found, made⟩ := bind_eq_ok_iff.mp answered
  cases made
  have sorted := map_scored_rankScored scorer.config scored
  have members : ∀ parse ∈ (rankScored scorer.config scored).parses, parse.scored ∈ scored := by
    intro parse member
    rw [← (List.mergeSort_perm scored isAtLeast).mem_iff, ← sorted]
    exact List.mem_map_of_mem member
  have lengths : scored.length = derivations.length := by
    simpa using congrArg List.length (map_derivation_of_scoreAll found)
  refine ⟨?_, places, fun parse member => scoreOne_of_mem found (members parse member), ?_,
    fun parse member => (agreed_of_mem_rankScored member).1,
    fun parse member => (agreed_of_mem_rankScored member).2, ?_⟩
  · rw [← lengths]
    exact map_rank_rankScored scorer.config scored
  · rw [← List.pairwise_map (f := RankedParse.scored), sorted]
    exact pairwise_outranks (map_derivation_of_scoreAll found)
  · rintro rfl
    obtain rfl := List.length_eq_zero_iff.mp lengths
    rw [rankScored, List.mergeSort_nil]
    exact ⟨rfl, rfl⟩

/-- Any scorer has a ranking for all derivations of the grammar, and every ranking is stable. -/
theorem rank_exact (scorer : Scorer) (grammar : Grammar) (tokens : List Token)
    (discourse : Option Discourse) (derivations : List Derivation) :
    ((∃ ranking, scorer.rank grammar discourse derivations tokens = .ok ranking) ↔
      ∀ derivation ∈ derivations, derivation.IsOf grammar) ∧
    ∀ ranking, scorer.rank grammar discourse derivations tokens = .ok ranking →
      ranking.IsStable scorer grammar tokens discourse derivations :=
  ⟨exists_rank_iff, fun _ => isStable_rank⟩

end Scorer

end Readings
