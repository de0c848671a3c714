import Readings.Proofs.PrunedForest
import Readings.Proofs.WellFormedForest

/-! Routes through a forest. A tree is made by taking, at every choice on the way, the alternative at some
place, and enumeration lists the trees in the order of their routes. What pruning leaves are the trees of
the routes on which every alternative that is taken survives. -/

namespace Readings

section
variable {α β κ : Type}

theorem flatMap_filter (keeps : α → Bool) (lists : α → List β) (items : List α) :
    (items.filter keeps).flatMap lists =
      items.flatMap fun item => if keeps item then lists item else [] := by
  induction items with
  | nil => rfl
  | cons item items ih => cases kept : keeps item <;> simp [kept, ih]

private theorem filter_pairs {γ : Type} {combine : α → β → γ} {keeps : γ → Bool} {first : α → Bool}
    {second : β → Bool} (same : ∀ a b, keeps (combine a b) = (first a && second b)) (firsts : List α)
    (seconds : List β) :
    (pairs combine firsts seconds).filter keeps =
      pairs combine (firsts.filter first) (seconds.filter second) := by
  rw [pairs, pairs, List.filter_flatMap, flatMap_filter]
  apply List.flatMap_congr
  intro item _
  rw [List.filter_map]
  split
  next kept => exact congrArg _ (List.filter_congr fun other _ => by simp [same, kept])
  next dropped => simp [Function.comp_def, same, dropped]

theorem filter_sequences (lists : κ → List α) (keeps : α → Bool) (keys : List κ) :
    (sequences lists keys).filter (fun values => values.all keeps) =
      sequences (fun key => (lists key).filter keeps) keys := by
  induction keys using List.reverseRecOn with
  | nil => rfl
  | append_singleton keys key ih =>
    rw [sequences_concat, sequences_concat, ← ih]
    apply filter_pairs
    intro values value
    rw [List.all_append, List.all_cons, List.all_nil, Bool.and_true]

theorem map_sequences (lists : κ → List α) (image : α → β) (keys : List κ) :
    (sequences lists keys).map (List.map image) = sequences (fun key => (lists key).map image) keys := by
  induction keys using List.reverseRecOn with
  | nil => rfl
  | append_singleton keys key ih =>
    rw [sequences_concat, sequences_concat, ← ih]
    simp only [pairs, List.map_flatMap, List.flatMap_map, List.map_map, Function.comp_def,
      List.map_append, List.map_cons, List.map_nil]

end

section Places
variable {α : Type} {priority : α → Int} {threshold : Int} {items : List α}

/-- Whether an item at a place survives: its priority reaches the threshold or, if none does, it is the
first of the highest. -/
def SurvivesAt (priority : α → Int) (threshold : Int) (items : List α) (item : α) (place : Nat) : Prop :=
  threshold ≤ priority item ∨
    (∀ other ∈ items, priority other < threshold ∧ priority other ≤ priority item) ∧
      ∀ other ∈ items.take place, priority other < priority item

instance (item : α) (place : Nat) : Decidable (SurvivesAt priority threshold items item place) :=
  inferInstanceAs (Decidable (_ ∨ _))

/-- If no item reaches the threshold, only one survives, at the place where the highest is found. -/
private theorem survivesAt_iff_of_low {winner : α} (highest : highest? priority items = some winner)
    (low : ∀ item ∈ items, priority item < threshold) :
    ∃ first, (winner, first) ∈ items.zipIdx ∧ ∀ item place, (item, place) ∈ items.zipIdx →
      (SurvivesAt priority threshold items item place ↔ (item, place) = (winner, first)) := by
  obtain ⟨most, first, inside, rfl, less⟩ := List.find?_eq_some_iff_getElem.mp highest
  simp only [List.all_eq_true, decide_eq_true_eq] at most
  have lower : ∀ other ∈ items.take first, priority other < priority items[first] := by
    intro other passed
    obtain ⟨place, before, rfl⟩ := List.mem_take_iff_getElem.mp passed
    have beaten := less place (by omega)
    simp only [Bool.not_eq_true', List.all_eq_false, decide_eq_true_eq] at beaten
    obtain ⟨better, known, above⟩ := beaten
    have bound := most better known
    omega
  refine ⟨first, List.mk_mem_zipIdx_iff_getElem?.mpr (List.getElem?_eq_getElem inside), ?_⟩
  intro item place member
  obtain ⟨short, rfl⟩ := List.getElem?_eq_some_iff.mp (List.mk_mem_zipIdx_iff_getElem?.mp member)
  rw [SurvivesAt, or_iff_right (Int.not_le.mpr (low _ (List.getElem_mem short)))]
  constructor
  · intro best
    -- The other of two places would come before this one and be beaten by it, or the other way round.
    rcases Nat.lt_trichotomy place first with early | rfl | late
    · have passed : items[place] ∈ items.take first :=
        List.mem_take_iff_getElem.mpr ⟨place, by omega, rfl⟩
      have beaten := lower _ passed
      have above := (best.1 _ (List.getElem_mem inside)).2
      omega
    · rfl
    · have passed : items[first] ∈ items.take place :=
        List.mem_take_iff_getElem.mpr ⟨first, by omega, rfl⟩
      have beaten := best.2 _ passed
      have above := most _ (List.getElem_mem short)
      omega
  · intro same
    obtain ⟨-, rfl⟩ := Prod.mk.inj same
    exact ⟨fun other known => ⟨low other known, most other known⟩, lower⟩

private theorem filter_eq_singleton {β : Type} {entries : List β} {keeps : β → Bool} {entry : β}
    (distinct : entries.Nodup) (member : entry ∈ entries)
    (single : ∀ other ∈ entries, keeps other = true ↔ other = entry) : entries.filter keeps = [entry] := by
  apply List.perm_singleton.mp
  apply (List.perm_ext_iff_of_nodup (distinct.filter _) (List.nodup_singleton _)).mpr
  intro other
  rw [List.mem_filter, List.mem_singleton]
  constructor
  · exact fun kept => (single other kept.1).mp kept.2
  · rintro rfl
    exact ⟨member, (single other member).mpr rfl⟩

theorem survivorsBy_eq_places (priority : α → Int) (threshold : Int) (items : List α) :
    survivorsBy priority threshold items =
      (items.zipIdx.filter fun entry =>
        decide (SurvivesAt priority threshold items entry.1 entry.2)).map Prod.fst := by
  by_cases some : ∃ item ∈ items, threshold ≤ priority item
  · obtain ⟨known, member, reaches⟩ := some
    have kept : items.filter (fun item => decide (threshold ≤ priority item)) ≠ [] :=
      List.ne_nil_of_mem (List.mem_filter.mpr ⟨member, decide_eq_true reaches⟩)
    have same : ∀ entry ∈ items.zipIdx,
        decide (SurvivesAt priority threshold items entry.1 entry.2) =
          decide (threshold ≤ priority entry.1) := by
      intro entry _
      apply decide_eq_decide.mpr
      refine or_iff_left fun beaten => ?_
      have below := (beaten.1 known member).1
      omega
    calc survivorsBy priority threshold items
        = items.filter fun item => decide (threshold ≤ priority item) := by
          rw [survivorsBy, if_neg (mt List.isEmpty_iff.mp kept)]
      _ = (items.zipIdx.map Prod.fst).filter fun item => decide (threshold ≤ priority item) := by
          rw [List.zipIdx_map_fst]
      _ = (items.zipIdx.filter fun entry => decide (threshold ≤ priority entry.1)).map Prod.fst :=
          List.filter_map
      _ = _ := congrArg _ (List.filter_congr same).symm
  · have low : ∀ item ∈ items, priority item < threshold := by
      intro item member
      exact Int.not_le.mp fun reaches => some ⟨item, member, reaches⟩
    have none : items.filter (fun item => decide (threshold ≤ priority item)) = [] :=
      List.filter_eq_nil_iff.mpr fun item member => by simp [low item member]
    rw [survivorsBy, if_pos (List.isEmpty_iff.mpr none)]
    cases highest : highest? priority items with
    | none =>
      rw [eq_nil_of_highest? highest]
      rfl
    | some winner =>
      obtain ⟨first, member, single⟩ := survivesAt_iff_of_low highest low
      have distinct : items.zipIdx.Nodup := by
        apply List.Nodup.of_map Prod.snd
        rw [List.zipIdx_map_snd]
        exact List.nodup_range'
      rw [filter_eq_singleton distinct member fun entry inside =>
        decide_eq_true_iff.trans (single entry.1 entry.2 inside)]
      rfl

end Places

/-- A choice on the way, with the alternative that is taken there and its place among the alternatives. -/
structure Turn where
  choice : NodeId
  alternative : NodeId
  place : Nat

/-- A way to make a tree, with what is taken at the choices on it. -/
structure Route where
  tree : Tree
  turns : List Turn

def ForestNode.fullRoutes (id : NodeId) (lists : NodeId → List Route) : ForestNode → List Route
  | .leaf token _ => [⟨.leaf token, []⟩]
  | .choice _ _ alternatives =>
    alternatives.zipIdx.flatMap fun entry =>
      (lists entry.1).map fun route => ⟨route.tree, ⟨id, entry.1, entry.2⟩ :: route.turns⟩
  | .application rule symbol span children _ _ =>
    (sequences lists children).map fun routes =>
      ⟨.node rule symbol span (routes.map Route.tree), routes.flatMap Route.turns⟩

private theorem mem_of_mem_zipIdx {α : Type} {items : List α} {entry : α × Nat}
    (member : entry ∈ items.zipIdx) : entry.1 ∈ items :=
  List.mem_of_getElem? (List.mk_mem_zipIdx_iff_getElem?.mp member)

theorem ForestNode.fullRoutes_congr {id : NodeId} {lists others : NodeId → List Route}
    {node : ForestNode} (same : ∀ child ∈ node.successors, lists child = others child) :
    node.fullRoutes id lists = node.fullRoutes id others := by
  cases node with
  | leaf token span => rfl
  | choice symbol span alternatives =>
    exact List.flatMap_congr fun entry member => by rw [same _ (mem_of_mem_zipIdx member)]
  | application rule symbol span children priority action =>
    exact congrArg _ (sequences_congr same)

namespace Forest

/-- Every route to a node, as long as nodes refer to nodes before them. -/
def routes (forest : Forest) (id : NodeId) : List Route :=
  match forest.node? id with
  | none => []
  | some node => node.fullRoutes id fun child => if child < id then forest.routes child else []
termination_by id

def alternatives (forest : Forest) (id : NodeId) : List NodeId :=
  match forest.node? id with
  | some (.choice _ _ alternatives) => alternatives
  | _ => []

end Forest

/-- Whether the alternative that is taken survives at its place. -/
def Turn.Survives (forest : Forest) (threshold : Int) (turn : Turn) : Prop :=
  SurvivesAt forest.priorityOf threshold (forest.alternatives turn.choice) turn.alternative turn.place

def Route.Survives (forest : Forest) (threshold : Int) (route : Route) : Prop :=
  ∀ turn ∈ route.turns, turn.Survives forest threshold

section
variable {forest : Forest} {threshold : Int}

instance Turn.decidableSurvives (turn : Turn) : Decidable (turn.Survives forest threshold) :=
  inferInstanceAs (Decidable (SurvivesAt _ _ _ _ _))

instance Route.decidableSurvives (route : Route) : Decidable (route.Survives forest threshold) :=
  inferInstanceAs (Decidable (∀ turn ∈ route.turns, turn.Survives forest threshold))

end

theorem ForestNode.map_fullRoutes (id : NodeId) (lists : NodeId → List Route) (node : ForestNode) :
    (node.fullRoutes id lists).map Route.tree =
      node.fullTrees fun child => (lists child).map Route.tree := by
  cases node with
  | leaf token span => rfl
  | choice symbol span alternatives =>
    have places : alternatives.zipIdx.map Prod.fst = alternatives := List.zipIdx_map_fst 0 alternatives
    rw [fullRoutes, fullTrees, List.map_flatMap, ← places, List.flatMap_map, places]
    simp only [List.map_map, Function.comp_def]
  | application rule symbol span children priority action =>
    rw [fullRoutes, fullTrees, ← map_sequences, List.map_map, List.map_map]
    rfl

namespace Forest

variable {forest : Forest} {threshold : Int} {id : NodeId} {node : ForestNode}

theorem Layered.routes_eq (layered : forest.Layered) (found : forest.node? id = some node) :
    forest.routes id = node.fullRoutes id forest.routes := by
  rw [routes, found]
  apply ForestNode.fullRoutes_congr
  intro child below
  exact if_pos (layered.earlier id node found child below)

theorem Layered.map_routes (layered : forest.Layered) (id : NodeId) :
    (forest.routes id).map Route.tree = forest.trees id := by
  induction id using Nat.strongRecOn with
  | ind id ih =>
    cases found : forest.node? id with
    | none =>
      rw [routes, trees, found]
      rfl
    | some node =>
      rw [layered.routes_eq found, layered.trees_eq found, ForestNode.map_fullRoutes]
      apply ForestNode.fullTrees_congr
      intro child below
      exact ih child (layered.earlier id node found child below)

section
variable {lists : NodeId → List Route}

/-- A route that takes one more turn survives if the turn does. -/
private theorem filter_turn (turn : Turn) (routes : List Route) :
    ((routes.map fun route => ⟨route.tree, turn :: route.turns⟩).filter fun route =>
        decide (route.Survives forest threshold)).map Route.tree =
      if turn.Survives forest threshold then
        (routes.filter fun route => decide (route.Survives forest threshold)).map Route.tree
      else [] := by
  have both : ∀ route : Route,
      decide ((⟨route.tree, turn :: route.turns⟩ : Route).Survives forest threshold) =
        (decide (turn.Survives forest threshold) && decide (route.Survives forest threshold)) := by
    intro route
    rw [← Bool.decide_and, decide_eq_decide]
    exact List.forall_mem_cons
  rw [List.filter_map, List.map_map]
  split
  next survives =>
    simp only [Function.comp_def, both, survives, decide_true, Bool.true_and]
  next falls => simp [Function.comp_def, both, falls]

private theorem filter_choice {symbol : Symbol} {span : TokenSpan} {alternatives : List NodeId}
    (found : forest.node? id = some (.choice symbol span alternatives)) :
    (((ForestNode.choice symbol span alternatives).fullRoutes id lists).filter fun route =>
        decide (route.Survives forest threshold)).map Route.tree =
      (forest.survivors threshold alternatives).flatMap fun alternative =>
        ((lists alternative).filter fun route => decide (route.Survives forest threshold)).map Route.tree := by
  have known : forest.alternatives id = alternatives := by rw [Forest.alternatives, found]
  rw [survivors_eq, survivorsBy_eq_places, List.flatMap_map, flatMap_filter, ForestNode.fullRoutes,
    List.filter_flatMap, List.map_flatMap]
  apply List.flatMap_congr
  intro entry _
  rw [filter_turn]
  simp only [Turn.Survives, known, decide_eq_true_eq]

private theorem filter_application (rule : RuleId) (symbol : Symbol) (span : TokenSpan)
    (children : List NodeId) :
    ((((sequences lists children).map fun routes =>
        (⟨.node rule symbol span (routes.map Route.tree), routes.flatMap Route.turns⟩ : Route))).filter
          fun route => decide (route.Survives forest threshold)).map Route.tree =
      (sequences (fun child => ((lists child).filter fun route =>
        decide (route.Survives forest threshold)).map Route.tree) children).map
          (.node rule symbol span) := by
  have all : ∀ routes : List Route,
      decide ((⟨.node rule symbol span (routes.map Route.tree), routes.flatMap Route.turns⟩ :
        Route).Survives forest threshold) =
      routes.all fun route => decide (route.Survives forest threshold) := by
    intro routes
    rw [Bool.eq_iff_iff, List.all_eq_true]
    simp only [decide_eq_true_eq]
    exact List.forall_mem_flatMap
  rw [← map_sequences, ← filter_sequences, List.filter_map, List.map_map, List.map_map]
  simp only [Function.comp_def, all]

end

/-- What is left of a node are the trees of the routes that survive. -/
theorem Layered.map_surviving_routes (layered : forest.Layered) (threshold : Int) (id : NodeId) :
    ((forest.routes id).filter fun route => decide (route.Survives forest threshold)).map Route.tree =
      forest.survivingTrees threshold id := by
  induction id using Nat.strongRecOn with
  | ind id ih =>
    cases found : forest.node? id with
    | none =>
      rw [routes, survivingTrees, found]
      rfl
    | some node =>
      have below : ∀ child ∈ node.successors, _ :=
        fun child member => ih child (layered.earlier id node found child member)
      rw [layered.routes_eq found, layered.survivingTrees_eq found]
      cases node with
      | leaf token span => rfl
      | choice symbol span alternatives =>
        rw [filter_choice found, remains, Shape.fullTrees]
        apply List.flatMap_congr
        exact fun alternative survives => below alternative ((survivors_spec _).1.subset survives)
      | application rule symbol span children priority action =>
        rw [ForestNode.fullRoutes, filter_application, remains, Shape.fullTrees]
        exact congrArg _ (sequences_congr below)

/-- Whether what a forest enumerates, up to any limit, are the first of some trees. -/
def Lists (forest : Forest) (all : List Tree) : Prop :=
  ∀ limit, forest.derivations limit =
    .ok ⟨(all.take (max limit 1)).filterMap Tree.toDerivation?, decide (max limit 1 < all.length)⟩

namespace LeftOver

variable {root : NodeId} {order : List NodeId} (left : LeftOver forest threshold root order)
include left

private theorem nested (wellFormed : forest.isWellFormed = true) :
    ∀ key ∈ order, ∀ target ∈ (forest.remainsAt threshold key).targets,
      (forest.remainsAt threshold key).span.contains (forest.remainsAt threshold target).span = true := by
  intro key member target inside
  obtain ⟨node, found⟩ := node?_isSome_iff.mpr (left.inside key member)
  rw [remainsAt_of_found found, targets_remains] at inside
  obtain ⟨-, inner, there, contains⟩ := (isWellFormed_iff.mp wellFormed key node found).1 target
    ((survivingSuccessors_sublist node).subset inside)
  rw [remainsAt_of_found found, remainsAt_of_found there, span_remains, span_remains]
  exact contains

private theorem reaches_threshold {key : NodeId} (member : key ∈ order) {symbol : Symbol}
    {span : TokenSpan} {keys : List NodeId}
    (same : forest.remainsAt threshold key = .choice symbol span keys) (several : 2 ≤ keys.length)
    {other : NodeId} (chosen : other ∈ keys)
    (applies : (forest.remainsAt threshold other).Applies symbol span) :
    ∃ priority, (forest.remainsAt threshold other).priority? = some priority ∧ threshold ≤ priority := by
  obtain ⟨alternatives, -, rfl⟩ := node?_of_remainsAt (left.inside key member) same
  rw [survivors_eq] at several chosen
  have reaches := reaches_of_survivorsBy several chosen
  have known : _ = forest.priorityOf other := priority?_remainsAt threshold other
  obtain ⟨rule, children, priority, action, made⟩ := applies
  rw [made] at known ⊢
  exact ⟨priority, rfl, Int.le_trans reaches (Int.le_of_eq known.symm)⟩

end LeftOver

/-- Pruning keeps exactly the routes on which every alternative that is taken survives, in a forest that
is well-formed, is reached from its root and has no alternative below the threshold left to choose. -/
theorem pruned_routes {root : NodeId} (wellFormed : forest.isWellFormed = true)
    (rooted : forest.root = some root) (inside : root < forest.size) (threshold : Int) :
    ∃ pruned top, forest.pruned threshold = .ok pruned ∧ pruned.isWellFormed = true ∧
      pruned.root = some top ∧ top < pruned.size ∧
      (∀ id < pruned.size, Relation.ReflTransGen (Leads pruned.successorGraph) top id) ∧
      (∀ id symbol span alternatives,
        pruned.node? id = some (.choice symbol span alternatives) → 2 ≤ alternatives.length ∧
          ∀ alternative ∈ alternatives, ∃ node priority, pruned.node? alternative = some node ∧
            node.priority? = some priority ∧ threshold ≤ priority) ∧
      forest.Lists ((forest.routes root).map Route.tree) ∧
      pruned.Lists (((forest.routes root).filter fun route =>
        decide (route.Survives forest threshold)).map Route.tree) := by
  have layered := layered_of_isWellFormed wellFormed
  obtain ⟨order, left, same⟩ := layered.exists_leftOver rooted inside threshold
  have laid := left.laid layered
  have settled := left.settled layered fun id symbol span alternatives found =>
    ((isWellFormed_iff.mp wellFormed id _ found).2 symbol span alternatives rfl).2
  refine ⟨_, (Arena.laidOut (forest.remainsAt threshold) order).number root, same,
    laid.isWellFormed settled _ _ (left.nested wellFormed), rfl, laid.placed root left.start,
    ?_, ?_, ?_, ?_⟩
  · intro id small
    obtain ⟨source, member, -, rfl⟩ := laid.keyed id small
    exact (laid.reaches _ _ left.ordered left.targets left.start (left.paths source member)).2
  · intro id symbol span alternatives found
    obtain ⟨key, member, keys, made, several, rfl, applied⟩ := laid.exists_alternatives settled _ _ found
    rw [List.length_map]
    refine ⟨several, ?_⟩
    intro alternative chosen
    obtain ⟨other, kept, rfl⟩ := List.mem_map.mp chosen
    obtain ⟨applies, there⟩ := applied other kept
    obtain ⟨priority, known, reaches⟩ := left.reaches_threshold member made several kept applies
    exact ⟨_, priority, there, (Shape.priority?_node _ _).trans known, reaches⟩
  · rw [layered.map_routes root]
    exact layered.derivations_eq rooted inside
  · rw [layered.map_surviving_routes, ← left.trees_number layered _ _ root left.start]
    exact (laid.layered_forest _ _).derivations_eq rfl (laid.placed root left.start)

end Forest

/-- Of three alternatives, two survive, and they are the same node. -/
theorem sharedChoice_pruned :
    sharedChoice.isWellFormed = true ∧ sharedChoice.root = some 6 ∧ 6 < sharedChoice.size ∧
      ∃ pruned top, sharedChoice.pruned 3 = .ok pruned ∧ pruned.isWellFormed = true ∧
        pruned.root = some top ∧ top < pruned.size ∧
        (∀ id < pruned.size, Relation.ReflTransGen (Leads pruned.successorGraph) top id) ∧
        (∀ id symbol span alternatives,
          pruned.node? id = some (.choice symbol span alternatives) → 2 ≤ alternatives.length ∧
            ∀ alternative ∈ alternatives, ∃ node priority, pruned.node? alternative = some node ∧
              node.priority? = some priority ∧ 3 ≤ priority) ∧
        sharedChoice.Lists ((sharedChoice.routes 6).map Route.tree) ∧
        pruned.Lists (((sharedChoice.routes 6).filter fun route =>
          decide (route.Survives sharedChoice 3)).map Route.tree) := by
  have wellFormed : sharedChoice.isWellFormed = true := by decide
  have inside : 6 < sharedChoice.size := by decide
  exact ⟨wellFormed, rfl, inside, Forest.pruned_routes wellFormed rfl inside 3⟩

end Readings
