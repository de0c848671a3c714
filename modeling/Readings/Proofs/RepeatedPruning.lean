import Readings.Proofs.FirstReading
import Readings.Proofs.PackedForest
import Readings.Proofs.PrunedForest
import Readings.Proofs.WellFormedForest

/-! Pruning more than once. Pruning what was laid out lays out again what its keys keep, node for node
and in the same order, so pruning at two thresholds is pruning at the larger one. A forest that was just
packed keeps everything at the lowest threshold, and is laid out as it was. -/

namespace Readings

namespace Shape

variable {κ ι : Type}

def graph (shape : κ → Shape κ) (key : κ) : Option (List κ) := some (shape key).targets

def priority (shape : Shape κ) : Int := shape.priority?.getD priorityMin

def narrowed (shape : κ → Shape κ) (threshold : Int) (key : κ) : Shape κ :=
  match shape key with
  | .choice symbol span alternatives =>
    .choice symbol span (survivorsBy (fun other => (shape other).priority) threshold alternatives)
  | other => other

theorem targets_narrowed_sublist (shape : κ → Shape κ) (threshold : Int) (key : κ) :
    (narrowed shape threshold key).targets.Sublist (shape key).targets := by
  rw [narrowed]
  split
  next same =>
    rw [same]
    exact survivorsBy_sublist
  next => exact List.Sublist.refl _

theorem narrowed_of_only {shape : κ → Shape κ} {key only : κ} (alone : (shape key).only? = some only)
    (threshold : Int) : narrowed shape threshold key = shape key := by
  obtain ⟨symbol, span, single⟩ := only?_eq_some_iff.mp alone
  simp only [narrowed, single, survivorsBy_singleton]

/-- Nothing is lost at a threshold that all alternatives reach. -/
theorem narrowed_eq_self {shape : κ → Shape κ} {threshold : Int}
    (all : ∀ key symbol span alternatives, shape key = .choice symbol span alternatives →
      ∀ other ∈ alternatives, threshold ≤ (shape other).priority) : narrowed shape threshold = shape := by
  funext key
  rw [narrowed]
  split
  next symbol span alternatives same =>
    rw [same, survivorsBy_eq_self (all key symbol span alternatives same)]
  next => rfl

/-- Shapes drawn together to others: a key without a place of its own is a choice of a single other one,
which has a place, and stands there, too. -/
structure Merges (shape : κ → Shape κ) (others : ι → Shape ι) (inside : κ → Prop) (own : κ → Bool)
    (place : κ → ι) : Prop where
  shut : IsSealed (graph shape) inside
  distinct : ∀ key other, inside key → inside other → own key = true → own other = true →
    place key = place other → key = other
  alone : ∀ key, inside key → own key = false →
    ∃ only, (shape key).only? = some only ∧ own only = true ∧ place key = place only
  same : ∀ key, inside key → own key = true → others (place key) = (shape key).map place

section
variable {shape : κ → Shape κ} {others : ι → Shape ι} {inside : κ → Prop} {own : κ → Bool} {place : κ → ι}

theorem Merges.contracts (merges : Merges shape others inside own place) :
    Contracts (graph shape) (graph others) inside own place := by
  refine ⟨merges.shut, merges.distinct, ?_, ?_⟩
  · intro key here owns
    obtain ⟨only, alone, owner, same⟩ := merges.alone key here owns
    obtain ⟨symbol, span, single⟩ := only?_eq_some_iff.mp alone
    exact ⟨only, by rw [graph, single, targets], owner, same⟩
  · intro key next here owns known
    obtain rfl := Option.some.inj known
    rw [graph, merges.same key here owns, targets_map]

variable [BEq κ] [Hashable κ] [LawfulBEq κ] [DecidableEq κ] [BEq ι] [Hashable ι] [LawfulBEq ι]
  [DecidableEq ι]

private theorem lay_agrees {arena : Arena κ} {other : Arena ι} {key : κ} (nodes : arena.nodes = other.nodes)
    (numbers : ∀ target ∈ (shape key).targets, arena.number target = other.number (place target))
    (same : others (place key) = (shape key).map place) :
    (arena.lay shape key).nodes = (other.lay others (place key)).nodes ∧
      (arena.lay shape key).number key = (other.lay others (place key)).number (place key) := by
  have alike : (others (place key)).only? = (shape key).only?.map place := by rw [same, only?_map]
  cases alone : (shape key).only? with
  | some only =>
    rw [alone, Option.map_some] at alike
    simp only [Arena.lay, alone, alike, Arena.number_redirect, if_true]
    exact ⟨nodes, numbers only (only_mem alone)⟩
  | none =>
    rw [alone, Option.map_none] at alike
    rw [Arena.number_lay_self alone, Arena.number_lay_self alike, Arena.nodes_lay_self alone,
      Arena.nodes_lay_self alike, same, node_map, nodes, node_congr numbers]
    exact ⟨rfl, rfl⟩

/-- Laying out shapes that are drawn together to others gives the nodes of the others, and every key has
the number of its place. -/
theorem Merges.laidOut (merges : Merges shape others inside own place) {order : List κ}
    (ordered : Postordered (graph shape) order) (within : ∀ key ∈ order, inside key) :
    (Arena.laidOut shape order).nodes = (Arena.laidOut others ((order.filter own).map place)).nodes ∧
      ∀ key ∈ order, (Arena.laidOut shape order).number key =
        (Arena.laidOut others ((order.filter own).map place)).number (place key) := by
  induction ordered with
  | nil => exact ⟨rfl, fun _ member => absurd member List.not_mem_nil⟩
  | @leave order key next before fresh known below ih =>
    have earlier : ∀ other ∈ order, inside other := fun other member =>
      within other (List.mem_append_left _ member)
    have here : inside key := within key (List.mem_append_right _ List.mem_cons_self)
    have other_key : ∀ other ∈ order, key ≠ other := fun other member same => fresh (same ▸ member)
    obtain ⟨nodes, numbers⟩ := ih earlier
    obtain rfl := Option.some.inj known
    rw [List.filter_append, List.filter_singleton, List.map_append, Arena.laidOut_concat]
    cases owns : own key with
    | false =>
      obtain ⟨only, alone, -, same⟩ := merges.alone key here owns
      rw [cond_false, List.map_nil, List.append_nil]
      simp only [Arena.lay, alone, Arena.number_redirect]
      refine ⟨nodes, ?_⟩
      intro other member
      split
      next equal => rw [← equal, same, numbers only (below (only_mem alone))]
      next differ =>
        have listed : other ∈ order :=
          (List.mem_append.mp member).resolve_right fun last => differ (List.mem_singleton.mp last).symm
        exact numbers other listed
    | true =>
      have place_ne : ∀ other ∈ order, place key ≠ place other := by
        intro other member same
        have left := merges.contracts.place_mem earlier (fun _ known _ => before.closed known) member
        exact fresh ((merges.contracts.mem_places_iff earlier here owns).mp (same ▸ left))
      obtain ⟨more, number⟩ := lay_agrees nodes
        (fun target inside => numbers target (below inside)) (merges.same key here owns)
      rw [cond_true, List.map_cons, List.map_nil, Arena.laidOut_concat]
      refine ⟨more, ?_⟩
      intro other member
      rcases List.mem_append.mp member with listed | last
      · rw [Arena.number_lay_of_ne (other_key other listed), Arena.number_lay_of_ne (place_ne other listed),
          numbers other listed]
      · exact List.mem_singleton.mp last ▸ number

theorem Merges.forest_eq (merges : Merges shape others inside own place) {order : List κ}
    (ordered : Postordered (graph shape) order) (within : ∀ key ∈ order, inside key) {goal : κ}
    (start : goal ∈ order) (tokenCount : Nat) :
    Forest.laidOut shape goal order tokenCount =
      Forest.laidOut others (place goal) ((order.filter own).map place) tokenCount := by
  obtain ⟨nodes, numbers⟩ := merges.laidOut ordered within
  rw [Forest.laidOut, Forest.laidOut, Arena.forest, Arena.forest, nodes, numbers goal start]

end

/-- How a forest is laid out: in the order of a walk from its goal, with choices between applications. -/
structure Walked (shape : κ → Shape κ) (goal : κ) (order : List κ) : Prop where
  visits : Traverses (graph shape) [] [goal] order
  ordered : Postordered (graph shape) order
  settled : Settled shape order

namespace Walked

variable {shape : κ → Shape κ} {goal key : κ} {order : List κ} (walked : Walked shape goal order)
  (tokenCount : Nat) (threshold : Int)
include walked

theorem start : goal ∈ order := walked.visits.covers List.mem_cons_self

variable [BEq κ] [Hashable κ] [LawfulBEq κ] [DecidableEq κ]

theorem laid : (Arena.laidOut shape order).Laid shape order :=
  Arena.laid_laidOut walked.ordered (fun _ _ => rfl) walked.settled.chosen

theorem node?_number (member : key ∈ order) (none : (shape key).only? = none) :
    (Forest.laidOut shape goal order tokenCount).node? ((Arena.laidOut shape order).number key) =
      some ((shape key).node (Arena.laidOut shape order).number) :=
  walked.laid.node_eq member none

theorem remainsAt_number (member : key ∈ order) (none : (shape key).only? = none) :
    (Forest.laidOut shape goal order tokenCount).remainsAt threshold
        ((Arena.laidOut shape order).number key) =
      (narrowed shape threshold key).map (Arena.laidOut shape order).number := by
  rw [Forest.remainsAt_of_found (walked.node?_number tokenCount member none)]
  cases same : shape key with
  | leaf token span => rw [narrowed, same]; rfl
  | application rule symbol span children priority action => rw [narrowed, same]; rfl
  | choice symbol span alternatives =>
    have priorities : ∀ other ∈ alternatives, (Forest.laidOut shape goal order tokenCount).priorityOf
        ((Arena.laidOut shape order).number other) = (shape other).priority := by
      intro other chosen
      have applies := walked.settled.applied key member _ _ _ same other chosen
      have inside : other ∈ order := walked.settled.closed key member (by rw [same]; exact chosen)
      rw [Forest.priorityOf, walked.node?_number tokenCount inside applies.only?, Option.bind_some,
        priority?_node, priority]
    simp only [node, Forest.remains, Forest.survivors_eq, survivorsBy_map priorities, narrowed, same, map]

theorem merges :
    Merges (narrowed shape threshold)
      ((Forest.laidOut shape goal order tokenCount).remainsAt threshold) (· ∈ order)
      (fun key => (shape key).only?.isNone) (Arena.laidOut shape order).number := by
  constructor
  · rintro key member target ⟨next, known, inside⟩
    obtain rfl := Option.some.inj known
    exact walked.settled.closed key member ((targets_narrowed_sublist shape threshold key).subset inside)
  · intro key other member inside owns owner
    exact walked.laid.distinct key member other inside (Option.isNone_iff_eq_none.mp owns)
      (Option.isNone_iff_eq_none.mp owner)
  · intro key member owns
    cases alone : (shape key).only? with
    | none => simp [alone] at owns
    | some only =>
      obtain ⟨symbol, span, single⟩ := only?_eq_some_iff.mp alone
      have applies := walked.settled.applied key member _ _ _ single only List.mem_cons_self
      have stands := walked.laid.stands key member
      rw [Arena.Stands, alone] at stands
      exact ⟨only, by rw [narrowed_of_only alone, alone], Option.isNone_iff_eq_none.mpr applies.only?,
        stands⟩
  · intro key member owns
    exact walked.remainsAt_number tokenCount threshold member (Option.isNone_iff_eq_none.mp owns)

end Walked

end Shape

namespace Forest

section
variable {forest : Forest} {threshold : Int} {root : NodeId} {order : List NodeId}
  (left : forest.LeftOver threshold root order)
include left

theorem LeftOver.visits_graph (layered : forest.Layered) :
    Traverses (Shape.graph (forest.remainsAt threshold)) [] [root] order := by
  have shut : IsSealed (forest.survivingGraph threshold) (· < forest.size) := by
    intro id inside target leads
    exact ((layered.surviving_graded threshold).reach inside (.single leads)).1
  exact left.visits.congr shut (fun id inside => survivingGraph_eq inside threshold)
    (List.forall_mem_singleton.mpr (left.inside root left.start))

theorem LeftOver.ordered_graph : Postordered (Shape.graph (forest.remainsAt threshold)) order :=
  left.ordered.congr left.targets

end

theorem pruned_laidOut {κ : Type} [BEq κ] [Hashable κ] [LawfulBEq κ] [DecidableEq κ]
    {shape : κ → Shape κ} {goal : κ} {order fewer : List κ} (walked : Shape.Walked shape goal order)
    {threshold : Int} (visits : Traverses (Shape.graph (Shape.narrowed shape threshold)) [] [goal] fewer)
    (ordered : Postordered (Shape.graph (Shape.narrowed shape threshold)) fewer) (tokenCount : Nat) :
    (laidOut shape goal order tokenCount).pruned threshold =
      .ok (laidOut (Shape.narrowed shape threshold) goal fewer tokenCount) := by
  have layered : (laidOut shape goal order tokenCount).Layered := walked.laid.layered_forest _ _
  have merges := walked.merges tokenCount threshold
  have within := visits.stays merges.shut (fun _ member => absurd member List.not_mem_nil)
    (List.forall_mem_singleton.mpr walked.start)
  obtain ⟨others, left, same⟩ :=
    layered.exists_leftOver rfl (walked.laid.placed goal walked.start) threshold
  have image := merges.contracts.visits visits (fun _ member => absurd member List.not_mem_nil)
    (fun _ member => absurd member List.not_mem_nil) (List.forall_mem_singleton.mpr walked.start)
  have start : goal ∈ fewer := visits.covers List.mem_cons_self
  rw [same, merges.forest_eq ordered within start, image.unique (left.visits_graph layered)]
  rfl

variable {forest : Forest} {root : NodeId}

theorem narrowed_remainsAt (forest : Forest) (first second : Int) :
    Shape.narrowed (forest.remainsAt first) second = forest.remainsAt (max first second) := by
  have priorities : (fun other => (forest.remainsAt first other).priority) = forest.priorityOf :=
    funext fun other => priority?_remainsAt first other
  funext id
  cases found : forest.node? id with
  | none => simp only [Shape.narrowed, remainsAt, found, Option.map_none, Option.getD_none]
  | some node =>
    rw [remainsAt_of_found found, Shape.narrowed, remainsAt_of_found found]
    cases node with
    | leaf token span => rfl
    | application rule symbol span children priority action => rfl
    | choice symbol span alternatives =>
      simp only [remains, priorities, survivors_eq, survivorsBy_survivorsBy]

theorem pruned_pruned (wellFormed : forest.isWellFormed = true) (rooted : forest.root = some root)
    (inside : root < forest.size) (first second : Int) :
    ∃ once both, forest.pruned first = .ok once ∧ once.pruned second = .ok both ∧
      forest.pruned (max first second) = .ok both := by
  have layered := layered_of_isWellFormed wellFormed
  have applied := fun id symbol span alternatives found =>
    ((isWellFormed_iff.mp wellFormed id _ found).2 symbol span alternatives rfl).2
  obtain ⟨order, left, once⟩ := layered.exists_leftOver rooted inside first
  obtain ⟨fewer, less, both⟩ := layered.exists_leftOver rooted inside (max first second)
  have walked : Shape.Walked (forest.remainsAt first) root order :=
    ⟨left.visits_graph layered, left.ordered_graph, left.settled layered applied⟩
  have visits := less.visits_graph layered
  have ordered := less.ordered_graph
  rw [← narrowed_remainsAt] at visits ordered both
  exact ⟨_, _, once, pruned_laidOut walked visits ordered _, both⟩

end Forest

section
variable {grammar : Grammar} {tokens : Array Token} {derivations : List Derivation}

private theorem narrowed_emissions (high : ∀ rule ∈ grammar.rules, priorityMin ≤ rule.priority)
    (filing : Filing) :
    Shape.narrowed (Emission.shape grammar filing) priorityMin = Emission.shape grammar filing := by
  apply Shape.narrowed_eq_self
  intro emission symbol span alternatives same other chosen
  obtain ⟨rfl, rfl⟩ := slot_of_choice same
  obtain ⟨packing, -, rfl⟩ := List.mem_map.mp chosen
  change priorityMin ≤ ((grammar.rule? packing.rule).map (·.priority)).getD 0
  cases found : grammar.rule? packing.rule with
  | none => decide
  | some rule => exact high rule (Array.mem_of_getElem? found)

theorem Layout.walked {order : List Emission} {arena : Arena Emission}
    (layout : Layout grammar tokens derivations order arena) :
    Shape.Walked (Emission.shape grammar (Filing.ofDerivations derivations))
      (Emission.whole grammar tokens) order := by
  have same : Emission.graph (Filing.ofDerivations derivations) =
      Shape.graph (Emission.shape grammar (Filing.ofDerivations derivations)) :=
    funext (Emission.graph_eq grammar _)
  exact ⟨same ▸ layout.visits, same ▸ layout.ordered, layout.arranged.toSettled⟩

theorem exists_packed_unpruned (acyclic : unitCycle? grammar.rules.toList = none)
    (high : ∀ rule ∈ grammar.rules, priorityMin ≤ rule.priority) (bound : tokens.size < countBound)
    (readings : ∀ derivation ∈ derivations, IsReading grammar tokens derivation) :
    ∃ forest, Forest.ofDerivations grammar derivations tokens.size = .ok forest ∧
      forest.pruned priorityMin = .ok forest := by
  by_cases some : derivations = []
  · subst some
    exact ⟨_, rfl, rfl⟩
  · obtain ⟨order, arena, layout, packed⟩ := exists_layout acyclic bound some readings
    obtain rfl := layout.made
    have walked := layout.walked
    have same := narrowed_emissions high (Filing.ofDerivations derivations)
    have pruned := Forest.pruned_laidOut walked (same.symm ▸ walked.visits)
      (same.symm ▸ walked.ordered) tokens.size
    exact ⟨_, packed, pruned.trans (by rw [same]; rfl)⟩

end

/-- Pruning a well-formed forest at two thresholds, in any order, is pruning it at the larger one, and
pruning a forest of extracted derivations at the lowest priority gives the same forest. -/
theorem pruning_composes :
    (∀ (forest : Forest) (root : NodeId), forest.isWellFormed = true → forest.root = some root →
      root < forest.size → ∀ first second, ∃ once other both,
        forest.pruned first = .ok once ∧ forest.pruned second = .ok other ∧
        forest.pruned (max first second) = .ok both ∧ once.pruned second = .ok both ∧
        other.pruned first = .ok both ∧ once.pruned first = .ok once) ∧
    ∀ (draft : GrammarDraft) (grammar : Grammar), draft.build = .ok grammar →
      (∀ rule ∈ grammar.rules, priorityMin ≤ rule.priority) →
      ∀ (config : ChartConfig) (tokens : Array Token), tokens.size < countBound → ∀ limit,
        ∃ selection, (Chart.build grammar config tokens).extract grammar limit = .ok selection ∧
          ∀ derivations ⊆ selection.derivations, ∃ forest,
            Forest.ofDerivations grammar derivations tokens.size = .ok forest ∧
              forest.pruned priorityMin = .ok forest := by
  constructor
  · intro forest root wellFormed rooted inside first second
    have composes := Forest.pruned_pruned wellFormed rooted inside
    obtain ⟨once, both, left, further, whole⟩ := composes first second
    obtain ⟨other, again, right, later, all⟩ := composes second first
    obtain ⟨twice, same, found, repeated, self⟩ := composes first first
    rw [max_comm, whole] at all
    rw [max_self, left] at self
    obtain rfl := Except.ok.inj all
    obtain rfl := Except.ok.inj self
    obtain rfl := Except.ok.inj (left.symm.trans found)
    exact ⟨once, other, both, left, right, whole, further, later, repeated⟩
  · intro draft grammar built high config tokens short limit
    have acyclic := GrammarDraft.acyclic_of_build built
    obtain ⟨selection, selects⟩ := Chart.exists_selects acyclic config tokens limit
    refine ⟨selection, selects.extracted, ?_⟩
    intro derivations extracted
    exact exists_packed_unpruned acyclic high short fun derivation member =>
      selects.readings derivation (extracted member)

theorem sharedChoice_pruned_twice :
    (sharedChoice.isWellFormed = true ∧ sharedChoice.root = some 6 ∧ 6 < sharedChoice.size ∧
      ∃ once other both, sharedChoice.pruned 3 = .ok once ∧ sharedChoice.pruned 4 = .ok other ∧
        sharedChoice.pruned 4 = .ok both ∧ once.pruned 4 = .ok both ∧ other.pruned 3 = .ok both ∧
        once.pruned 3 = .ok once) ∧
    sumsDraft.build = .ok sums ∧ (∀ rule ∈ sums.rules, priorityMin ≤ rule.priority) ∧
      threeOnes.size < countBound ∧
      ∃ selection, (Chart.build sums {} threeOnes).extract sums 64 = .ok selection ∧
        ∀ derivations ⊆ selection.derivations, ∃ forest,
          Forest.ofDerivations sums derivations threeOnes.size = .ok forest ∧
            forest.pruned priorityMin = .ok forest := by
  have wellFormed : sharedChoice.isWellFormed = true := by decide
  have inside : 6 < sharedChoice.size := by decide
  have high : ∀ rule ∈ sums.rules, priorityMin ≤ rule.priority := by decide
  have short : threeOnes.size < countBound := by decide +kernel
  refine ⟨⟨wellFormed, rfl, inside, ?_⟩, sumsDraft_builds, high, short, ?_⟩
  · exact pruning_composes.1 sharedChoice 6 wellFormed rfl inside 3 4
  · exact pruning_composes.2 sumsDraft sums sumsDraft_builds high {} threeOnes short 64

end Readings
