import Readings.Proofs.Filing

/-! What has to be made before what. A place waits for its applications, an application for its parts,
and the parts weigh less than the place. Every place on a path takes two steps, so a walk needs twice as
many as there are places, and two for the ends. -/

namespace Readings

namespace Emission

def graph (filing : Filing) (emission : Emission) : Option (List Emission) :=
  some (emission.requires filing)

theorem leads_iff {filing : Filing} {emission target : Emission} :
    Leads (graph filing) emission target ↔ target ∈ emission.requires filing :=
  leads_some_iff

/-- Whether something is made for rule applications that were filed. -/
def IsFiled (tokens : Array Token) (nodes : List Derivation) : Emission → Prop
  | .leaf token => token < tokens.size
  | .slot place => ∃ node ∈ nodes, node.slot = place
  | .alternative place packing => ∃ node ∈ nodes, node.slot = place ∧ node.packing = packing

/-- Two steps for every lighter place. -/
def height (rank : Symbol → Nat) (filing : Filing) : Emission → Nat
  | .leaf _ => 0
  | .slot place => 2 * lighter (Slot.weight rank) filing.slots.keys place + 2
  | .alternative place _ => 2 * lighter (Slot.weight rank) filing.slots.keys place + 1

variable {grammar : Grammar} {tokens : Array Token} {nodes : List Derivation} {filing : Filing}

private theorem part_falls {rank : Symbol → Nat} {bound : Nat}
    (ranked : Ranked grammar.rules.toList rank bound) (harvest : Harvest grammar tokens nodes)
    (filed : filing.FiledFrom nodes) {node : Derivation} (member : node ∈ nodes) {child : Tree}
    (below : child ∈ node.children) :
    (ofPart child.part).IsFiled tokens nodes ∧
      (ofPart child.part).height rank filing < (alternative node.slot node.packing).height rank filing := by
  cases inner : child.toDerivation? with
  | none =>
    cases child with
    | node => cases inner
    | leaf token =>
      refine ⟨?_, Nat.succ_pos _⟩
      obtain ⟨rule, lhs, span, children⟩ := node
      cases harvest.derives _ member with
      | application known all =>
        obtain ⟨_, _, _, _, _, _, _, _, _, here, _⟩ := all.around below
        cases here with
        | token found _ => exact (Array.getElem?_eq_some_iff.mp found).1
  | some other =>
    have deeper := harvest.below node member child below other inner
    have falls := harvest.lighter ranked member below inner
    have known := Filing.mem_keys ((filed _ _).mpr ⟨other, deeper, rfl, rfl⟩)
    have fewer := lighter_lt known falls
    rw [Tree.eq_of_toDerivation? inner]
    refine ⟨⟨other, deeper, rfl⟩, ?_⟩
    change 2 * lighter (Slot.weight rank) filing.slots.keys other.slot + 2 <
      2 * lighter (Slot.weight rank) filing.slots.keys node.slot + 1
    omega

theorem graded {rank : Symbol → Nat} {bound : Nat} (ranked : Ranked grammar.rules.toList rank bound)
    (harvest : Harvest grammar tokens nodes) (filed : filing.FiledFrom nodes) :
    Graded (graph filing) (IsFiled tokens nodes) (height rank filing) := by
  constructor
  intro emission known
  refine ⟨_, rfl, ?_⟩
  intro target member
  cases emission with
  | leaf token => exact absurd member List.not_mem_nil
  | slot place =>
    obtain ⟨packing, inside, rfl⟩ := List.mem_map.mp member
    exact ⟨(filed place packing).mp inside, Nat.lt_succ_self _⟩
  | alternative place packing =>
    obtain ⟨node, found, rfl, rfl⟩ := known
    obtain ⟨part, inside, rfl⟩ := List.mem_map.mp member
    obtain ⟨child, below, rfl⟩ := List.mem_map.mp inside
    exact part_falls ranked harvest filed found below

end Emission

end Readings
