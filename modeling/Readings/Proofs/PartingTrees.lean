import Readings.Proofs.ArrangedForest

/-! Where two trees of a node part. On the way down they follow the same nodes, up to a choice at which
they take different alternatives. -/

namespace Readings

/-- The rule application that a path of child positions leads to. -/
def Derivation.follow? : Derivation → List Nat → Option Derivation
  | derivation, [] => some derivation
  | derivation, index :: path =>
    (derivation.children[index]?.bind Tree.toDerivation?).bind fun inner => inner.follow? path

namespace Forest

/-- Two applications made by different alternatives of a choice. -/
structure Parts (forest : Forest) (id : NodeId) (one other : Derivation) : Prop where
  differ : one.packing ≠ other.packing
  chosen : ∃ symbol span alternatives, forest.node? id = some (.choice symbol span alternatives) ∧
    one.slot = ⟨symbol, span⟩ ∧ other.slot = ⟨symbol, span⟩ ∧
    (∃ alternative ∈ alternatives, forest.packing? alternative = some one.packing) ∧
    ∃ alternative ∈ alternatives, forest.packing? alternative = some other.packing

variable {forest : Forest}

private theorem exists_different {holds : Tree → NodeId → Prop} {first second : List Tree}
    {children : List NodeId} (left : List.Forall₂ holds first children)
    (right : List.Forall₂ holds second children) (differ : first ≠ second) :
    ∃ (index : Nat) (one other : Tree), first[index]? = some one ∧ second[index]? = some other ∧ one ≠ other ∧
      ∃ child ∈ children, holds one child ∧ holds other child := by
  induction left generalizing second with
  | nil =>
    cases right
    exact absurd rfl differ
  | @cons one child first children here _ ih =>
    cases right with
    | @cons other _ second _ there rest =>
      by_cases same : one = other
      · subst same
        obtain ⟨index, one, other, found, known, unlike, below, member, held⟩ :=
          ih rest fun equal => differ (congrArg _ equal)
        exact ⟨index + 1, one, other, found, known, unlike, below, List.mem_cons_of_mem _ member, held⟩
      · exact ⟨0, one, other, rfl, rfl, same, child, List.mem_cons_self, here, there⟩

private theorem Arranged.exists_derivations (arranged : forest.Arranged) {id : NodeId} {one other : Tree}
    (here : one ∈ forest.trees id) (there : other ∈ forest.trees id) (differ : one ≠ other) :
    ∃ first second : Derivation, one = first.tree ∧ other = second.tree ∧ first ≠ second := by
  have same : one.part = other.part :=
    Option.some.inj ((arranged.part_eq here).symm.trans (arranged.part_eq there))
  cases one with
  | leaf token =>
    cases other with
    | leaf => exact absurd (congrArg Tree.leaf (Part.leaf.inj same)) differ
    | node => cases same
  | node rule lhs span children =>
    cases other with
    | leaf => cases same
    | node otherRule otherLhs otherSpan others =>
      refine ⟨⟨rule, lhs, span, children⟩, ⟨otherRule, otherLhs, otherSpan, others⟩, rfl, rfl, ?_⟩
      exact fun equal => differ (congrArg Derivation.tree equal)

private theorem Arranged.exists_inner (arranged : forest.Arranged) {id : NodeId} {rule : RuleId}
    {symbol : Symbol} {span : TokenSpan} {children : List NodeId} {priority : Int} {action : Option String}
    (found : forest.node? id = some (.application rule symbol span children priority action))
    {first second : Derivation} (here : first.tree ∈ forest.trees id)
    (there : second.tree ∈ forest.trees id) (differ : first ≠ second) :
    ∃ (index : Nat) (inner another : Derivation),
      (∀ path, first.follow? (index :: path) = inner.follow? path) ∧
      (∀ path, second.follow? (index :: path) = another.follow? path) ∧ inner ≠ another ∧
      ∃ child < id, inner.tree ∈ forest.trees child ∧ another.tree ∈ forest.trees child := by
  obtain ⟨_, _, _, front⟩ := first
  obtain ⟨_, _, _, back⟩ := second
  obtain ⟨_, same, made⟩ := (arranged.layered.mem_trees_application found).mp here
  obtain ⟨_, equal, built⟩ := (arranged.layered.mem_trees_application found).mp there
  obtain ⟨rfl, rfl, rfl, rfl⟩ := Tree.node.inj same
  obtain ⟨rfl, rfl, rfl, rfl⟩ := Tree.node.inj equal
  have unlike : front ≠ back := fun alike => differ (alike ▸ rfl)
  obtain ⟨index, one, other, left, right, apart, child, member, inside, within⟩ :=
    exists_different made built unlike
  obtain ⟨inner, another, rfl, rfl, distinct⟩ := arranged.exists_derivations inside within apart
  refine ⟨index, inner, another, ?_, ?_, distinct, child,
    arranged.layered.earlier id _ found child member, inside, within⟩
  · intro path
    rw [Derivation.follow?, left]
    rfl
  · intro path
    rw [Derivation.follow?, right]
    rfl

private theorem Arranged.parts_of_ne (arranged : forest.Arranged) {id : NodeId} {symbol : Symbol}
    {span : TokenSpan} {alternatives : List NodeId}
    (found : forest.node? id = some (.choice symbol span alternatives)) {a b : NodeId}
    (chosen : a ∈ alternatives) (taken : b ∈ alternatives) (differ : a ≠ b) {first second : Derivation}
    (made : first.tree ∈ forest.trees a) (built : second.tree ∈ forest.trees b) :
    forest.Parts id first second := by
  obtain ⟨_, left, applies⟩ := arranged.applied id _ _ _ found a chosen
  obtain ⟨_, right, applied⟩ := arranged.applied id _ _ _ found b taken
  obtain ⟨slot, packing⟩ := arranged.packing_eq left applies made
  obtain ⟨place, other⟩ := arranged.packing_eq right applied built
  refine ⟨fun alike => differ ?_, symbol, span, alternatives, found, slot, place, ⟨a, chosen, packing⟩,
    b, taken, other⟩
  apply List.inj_on_of_nodup_map (arranged.distinct id _ _ _ found) chosen taken
  rw [packing, other, alike]

theorem Arranged.exists_parting (arranged : forest.Arranged) {id : NodeId} {first second : Derivation}
    (here : first.tree ∈ forest.trees id) (there : second.tree ∈ forest.trees id)
    (differ : first ≠ second) :
    ∃ choice path one other, first.follow? path = some one ∧ second.follow? path = some other ∧
      forest.Parts choice one other := by
  induction id using Nat.strongRecOn generalizing first second with
  | ind id ih =>
    obtain ⟨node, found⟩ : ∃ node, forest.node? id = some node := by
      cases found : forest.node? id with
      | none => rw [trees, found] at here; cases here
      | some node => exact ⟨node, rfl⟩
    cases node with
    | leaf token span =>
      rw [arranged.layered.trees_eq found] at here
      cases List.mem_singleton.mp here
    | application rule symbol span children priority action =>
      obtain ⟨index, inner, another, steps, paces, apart, child, earlier, inside, within⟩ :=
        arranged.exists_inner found here there differ
      obtain ⟨choice, path, one, other, followed, traced, parts⟩ := ih child earlier inside within apart
      exact ⟨choice, index :: path, one, other, (steps path).trans followed, (paces path).trans traced,
        parts⟩
    | choice symbol span alternatives =>
      obtain ⟨a, chosen, made⟩ := (arranged.layered.mem_trees_choice found).mp here
      obtain ⟨b, taken, built⟩ := (arranged.layered.mem_trees_choice found).mp there
      by_cases same : a = b
      · subst same
        exact ih a (arranged.layered.earlier id _ found a chosen) made built differ
      · exact ⟨id, [], first, second, rfl, rfl, arranged.parts_of_ne found chosen taken same made built⟩

end Forest

end Readings
