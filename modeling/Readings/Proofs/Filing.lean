import Readings.Forest.Build
import Readings.Proofs.MilestoneOrder

/-! What is filed when derivations are packed: the applications at the nodes of the derivations, each
once under its place. The nodes are a list that holds the nodes below each of its own; along with a
grammar without unit cycles this makes a weight for places that falls from a node to those below it. -/

namespace Readings

def Derivation.slot (derivation : Derivation) : Slot := ⟨derivation.lhs, derivation.span⟩

def Derivation.packing (derivation : Derivation) : Packing :=
  ⟨derivation.rule, derivation.children.map Tree.part⟩

mutual
theorem Tree.mem_packings_iff {entry : Slot × Packing} : ∀ tree : Tree,
    entry ∈ tree.packings ↔ ∃ node ∈ tree.nodes, (node.slot, node.packing) = entry
  | .leaf _ => by simp [Tree.packings, Tree.nodes]
  | .node rule lhs span children => by
    simp only [Tree.packings, Tree.nodes, List.mem_append, List.mem_cons, List.not_mem_nil, or_false,
      Tree.mem_packingsOf_iff children]
    constructor
    · intro listed
      rcases listed with ⟨node, below, same⟩ | rfl
      · exact ⟨node, Or.inr below, same⟩
      · exact ⟨_, Or.inl rfl, rfl⟩
    · intro made
      obtain ⟨node, here, same⟩ := made
      rcases here with rfl | below
      · exact Or.inr same.symm
      · exact Or.inl ⟨node, below, same⟩

theorem Tree.mem_packingsOf_iff {entry : Slot × Packing} : ∀ trees : List Tree,
    entry ∈ Tree.packingsOf trees ↔ ∃ node ∈ Tree.nodesOf trees, (node.slot, node.packing) = entry
  | [] => by simp [Tree.packingsOf, Tree.nodesOf]
  | tree :: trees => by
    simp only [Tree.packingsOf, Tree.nodesOf, List.mem_append, or_and_right, exists_or,
      Tree.mem_packings_iff tree, Tree.mem_packingsOf_iff trees]
end

namespace Filing

theorem alternatives_add (filing : Filing) (entry : Slot × Packing) (slot : Slot) :
    (filing.add entry).alternatives slot =
      if entry.1 = slot ∧ entry.2 ∉ filing.alternatives slot then
        filing.alternatives slot ++ [entry.2]
      else filing.alternatives slot := by
  simp only [add, List.contains_iff_mem]
  by_cases same : entry.1 = slot
  · subst same
    split <;> simp_all [alternatives]
  · split <;> simp_all [alternatives, Std.HashMap.getD_insert]

/-- A filing of some applications: each of them once under its place. -/
structure Files (filing : Filing) (entries : List (Slot × Packing)) : Prop where
  distinct : ∀ slot, (filing.alternatives slot).Nodup
  mem_iff : ∀ slot packing, packing ∈ filing.alternatives slot ↔ (slot, packing) ∈ entries

theorem Files.add {filing : Filing} {entries : List (Slot × Packing)} (files : filing.Files entries)
    (entry : Slot × Packing) : (filing.add entry).Files (entries ++ [entry]) := by
  constructor
  · intro slot
    rw [alternatives_add]
    split
    next fresh =>
      apply List.nodup_append.mpr
      refine ⟨files.distinct slot, by simp, ?_⟩
      intro packing member other only same
      exact fresh.2 (List.mem_singleton.mp only ▸ same ▸ member)
    next => exact files.distinct slot
  · intro slot packing
    rw [alternatives_add, List.mem_append, List.mem_singleton]
    split
    next fresh =>
      rw [List.mem_append, List.mem_singleton, files.mem_iff]
      apply or_congr Iff.rfl
      constructor
      · intro same
        subst same
        exact fresh.1 ▸ rfl
      · intro same
        subst same
        rfl
    next known =>
      rw [files.mem_iff]
      refine ⟨Or.inl, ?_⟩
      intro listed
      rcases listed with member | rfl
      · exact member
      · by_contra absent
        exact known ⟨rfl, fun member => absent ((files.mem_iff _ _).mp member)⟩

theorem files_foldl {filing : Filing} {before entries : List (Slot × Packing)}
    (files : filing.Files before) : (entries.foldl Filing.add filing).Files (before ++ entries) := by
  induction entries generalizing filing before with
  | nil => simpa using files
  | cons entry entries ih => simpa using ih (files.add entry)

theorem files_empty : Filing.empty.Files [] :=
  ⟨fun _ => by simp [alternatives, empty], fun _ _ => by simp [alternatives, empty]⟩

theorem mem_keys {filing : Filing} {slot : Slot} {packing : Packing}
    (member : packing ∈ filing.alternatives slot) : slot ∈ filing.slots.keys := by
  by_contra absent
  rw [Std.HashMap.mem_keys] at absent
  rw [alternatives, Std.HashMap.getD_eq_fallback absent] at member
  exact List.not_mem_nil member

end Filing

theorem Tree.eq_of_toDerivation? {tree : Tree} {derivation : Derivation}
    (same : tree.toDerivation? = some derivation) : tree = derivation.tree := by
  cases tree with
  | leaf token => cases same
  | node rule lhs span children =>
    cases same
    rfl

variable {grammar : Grammar} {tokens : Array Token}

mutual
theorem Derives.of_node {element start stop tree} {node : Derivation} (member : node ∈ tree.nodes) :
    Derives grammar tokens element start stop tree →
      Derives grammar tokens (.nonTerminal node.lhs) node.span.start node.span.stop node.tree
  | .token _ _ => absurd member List.not_mem_nil
  | .application known below => by
    rcases List.mem_cons.mp member with rfl | inner
    · exact .application known below
    · exact below.of_node inner

theorem DerivesAll.of_node {elements start stop trees} {node : Derivation}
    (member : node ∈ Tree.nodesOf trees) :
    DerivesAll grammar tokens elements start stop trees →
      Derives grammar tokens (.nonTerminal node.lhs) node.span.start node.span.stop node.tree
  | .nil => absurd member List.not_mem_nil
  | .cons first rest => by
    rcases List.mem_append.mp member with here | later
    · exact first.of_node here
    · exact rest.of_node later
end

private theorem nodes_closed {node other : Derivation} {child tree : Tree} (below : child ∈ node.children)
    (inner : child.toDerivation? = some other) (member : node ∈ tree.nodes) : other ∈ tree.nodes := by
  apply Tree.nodes_subset member
  refine List.mem_cons_of_mem _ (Tree.mem_nodesOf.mpr ⟨child, below, ?_⟩)
  rw [Tree.eq_of_toDerivation? inner]
  exact List.mem_cons_self

/-- Rule applications with exact spans, along with all those below them. -/
structure Harvest (grammar : Grammar) (tokens : Array Token) (nodes : List Derivation) : Prop where
  derives : ∀ node ∈ nodes, Derives grammar tokens (.nonTerminal node.lhs) node.span.start
    node.span.stop node.tree
  below : ∀ node ∈ nodes, ∀ child ∈ node.children, ∀ other,
    child.toDerivation? = some other → other ∈ nodes

theorem harvest_readings {derivations : List Derivation}
    (readings : ∀ derivation ∈ derivations, IsReading grammar tokens derivation) :
    Harvest grammar tokens (derivations.flatMap Derivation.nodes) := by
  constructor
  · intro node member
    obtain ⟨derivation, known, inside⟩ := List.mem_flatMap.mp member
    exact (readings derivation known).of_node inside
  · intro node member child below other inner
    obtain ⟨derivation, known, inside⟩ := List.mem_flatMap.mp member
    exact List.mem_flatMap.mpr ⟨derivation, known, nodes_closed below inner inside⟩

/-- Under every place stand the applications filed there, and nothing else. -/
def Filing.FiledFrom (filing : Filing) (nodes : List Derivation) : Prop :=
  ∀ slot packing, packing ∈ filing.alternatives slot ↔
    ∃ node ∈ nodes, node.slot = slot ∧ node.packing = packing

theorem Filing.filedFrom_ofDerivations (derivations : List Derivation) :
    (Filing.ofDerivations derivations).FiledFrom (derivations.flatMap Derivation.nodes) := by
  intro slot packing
  rw [Filing.ofDerivations, (Filing.files_foldl Filing.files_empty).mem_iff, List.nil_append]
  simp only [List.mem_flatMap, Tree.mem_packings_iff, Derivation.nodes, Prod.mk.injEq]
  constructor
  · intro entry
    obtain ⟨derivation, known, node, inside, same⟩ := entry
    exact ⟨node, ⟨derivation, known, inside⟩, same⟩
  · intro application
    obtain ⟨node, ⟨derivation, known, inside⟩, same⟩ := application
    exact ⟨derivation, known, node, inside, same⟩

/-- The length of a span, then the rank of the symbol. -/
def Slot.weight (rank : Symbol → Nat) (slot : Slot) : Nat ×ₗ Nat :=
  toLex (slot.span.stop - slot.span.start, rank slot.symbol)

/-- The places below a rule application weigh less than its own. -/
theorem Harvest.lighter {nodes : List Derivation} (harvest : Harvest grammar tokens nodes)
    {rank : Symbol → Nat} {bound : Nat} (ranked : Ranked grammar.rules.toList rank bound)
    {node other : Derivation} (member : node ∈ nodes) {child : Tree} (below : child ∈ node.children)
    (inner : child.toDerivation? = some other) :
    other.slot.weight rank < node.slot.weight rank := by
  have outer := harvest.derives node member
  have derived := harvest.derives other (harvest.below node member child below other inner)
  obtain ⟨rule, lhs, ⟨start, stop⟩, children⟩ := node
  obtain ⟨otherRule, symbol, ⟨first, last⟩, others⟩ := other
  cases outer with
  | application known all =>
    rw [Tree.eq_of_toDerivation? inner] at below
    obtain ⟨front, element, back, _, _, _, _, shape, before, here, behind⟩ := all.around below
    cases here with
    | application =>
      have early := before.le
      have late := behind.le
      have ordered := derived.le
      simp only [Slot.weight, Derivation.slot, Prod.Lex.toLex_lt_toLex]
      by_cases shorter : last - first < stop - start
      · exact Or.inl shorter
      · simp only at early late ordered
        obtain rfl : start = first := by omega
        obtain rfl : last = stop := by omega
        obtain ⟨found, member, rfl, same⟩ := Grammar.rule_of_lhs known
        refine Or.inr ⟨rfl, ?_⟩
        apply ranked.falls
        exact mem_unitTargets (by simpa using Array.mem_of_getElem? member) (same ▸ shape)
          (before.all_isNullable rfl) (behind.all_isNullable rfl)

end Readings
