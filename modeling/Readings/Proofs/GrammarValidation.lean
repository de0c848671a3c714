import Readings.Proofs.NumberedRules
import Readings.Proofs.SelfDerivation

/-! Which grammars are built. Numbering the names of a draft changes nothing of what derives what, so a
symbol of the numbered rules derives itself exactly if a name of the draft does, and a closed walk of
symbols is one of names. -/

namespace Readings

open Relation (TransGen)

/-- What a draft needs so that all its names mean something. -/
structure GrammarDraft.IsWellFormed (draft : GrammarDraft) : Prop where
  nonempty : draft.rules ≠ []
  started : ∃ rule ∈ draft.rules, draft.start = some rule.lhs
  defined : ∀ rule ∈ draft.rules, ∀ name, ElementDraft.nonTerminal name ∈ rule.rhs →
    ∃ other ∈ draft.rules, other.lhs = name
  distinct : (ruleNames 0 draft.rules).Nodup

/-- No name derives itself alone in one or more steps. -/
def GrammarDraft.IsAcyclic (draft : GrammarDraft) : Prop :=
  ∀ name, ¬ TransGen (Rewrites (ElementDraft.Expands draft.rules))
    [.nonTerminal name] [.nonTerminal name]

/-- A name with a rule whose right side holds the other among elements that derive nothing. -/
def GrammarDraft.HasUnitEdge (draft : GrammarDraft) (source target : String) : Prop :=
  LeavesAlone (ElementDraft.Expands draft.rules) (.nonTerminal source) (.nonTerminal target)

abbrev GrammarDraft.names (draft : GrammarDraft) : List String := symbolNames draft.rules

abbrev GrammarDraft.numbered (draft : GrammarDraft) : List Rule :=
  numberedRules draft.names 0 draft.rules

section Numbering
variable {draft : GrammarDraft}

theorem ElementDraft.Expands.exists_draft {element : ElementDraft} {elements : List ElementDraft}
    (known : ElementDraft.Expands draft.rules element elements) :
    ∃ rule ∈ draft.rules, element = .nonTerminal rule.lhs ∧ elements = rule.rhs := by
  cases known with
  | rule member => exact ⟨_, member, rfl, rfl⟩

theorem Element.Expands.exists_draft {element : Element} {elements : List Element}
    (known : Element.Expands draft.numbered element elements) :
    ∃ rule ∈ draft.rules, element = .nonTerminal (draft.names.idxOf rule.lhs) ∧
      elements = rule.rhs.map (ElementDraft.numbered draft.names) := by
  obtain ⟨numbered, member, rfl, rfl⟩ := known.exists_rule
  obtain ⟨⟨rule, index⟩, listed, rfl⟩ := List.mem_map.mp member
  exact ⟨rule, List.fst_mem_of_mem_zipIdx listed, rfl, rfl⟩

theorem eq_of_numbered_eq {name : String} (defined : name ∈ draft.names) {element : ElementDraft}
    (same : element.numbered draft.names = .nonTerminal (draft.names.idxOf name)) :
    element = .nonTerminal name := by
  cases element with
  | nonTerminal other =>
    simp only [ElementDraft.numbered, Element.nonTerminal.injEq] at same
    rw [(List.idxOf_inj defined).mp same.symm]
  | word text => cases same
  | kind name => cases same
  | tag name => cases same

theorem GrammarDraft.isRenaming (draft : GrammarDraft) :
    IsRenaming (ElementDraft.Expands draft.rules) (Element.Expands draft.numbered)
      (ElementDraft.numbered draft.names) where
  keeps := by
    intro element elements known
    obtain ⟨rule, member, rfl, rfl⟩ := known.exists_draft
    obtain ⟨index, found⟩ := List.getElem?_of_mem member
    have listed : (rule, index) ∈ draft.rules.zipIdx 0 := List.mk_mem_zipIdx_iff_getElem?.mpr found
    exact .rule (List.mem_map_of_mem listed)
  lifts := by
    intro element elements known
    obtain ⟨rule, member, side, rfl⟩ := known.exists_draft
    rw [eq_of_numbered_eq (mem_symbolNames.mpr ⟨rule, member, rfl⟩) side]
    exact ⟨rule.rhs, .rule member, rfl⟩

end Numbering

section Cycles
variable {draft : GrammarDraft}

private theorem exists_side_of_edge {symbol : Symbol} {sole : Element}
    (alone : LeavesAlone (Element.Expands draft.numbered) (.nonTerminal symbol) sole) :
    ∃ name ∈ draft.names, symbol = draft.names.idxOf name := by
  obtain ⟨front, back, known, -, -⟩ := alone
  obtain ⟨rule, member, same, -⟩ := known.exists_draft
  exact ⟨rule.lhs, mem_symbolNames.mpr ⟨rule, member, rfl⟩, Element.nonTerminal.inj same⟩

/-- The search over the numbered rules finds no cycle exactly if no name derives itself alone. -/
theorem GrammarDraft.isAcyclic_iff : draft.IsAcyclic ↔ unitCycle? draft.numbered = none := by
  rw [unitCycle?_eq_none_iff]
  constructor
  · intro acyclic symbol returns
    obtain ⟨sole, first, -⟩ := TransGen.head'_iff.mp (rewrites_alone_iff.mp returns)
    obtain ⟨name, defined, rfl⟩ := exists_side_of_edge first
    obtain ⟨form, derived, shape⟩ := draft.isRenaming.transGen_rewrites_iff.mp
      (show TransGen _ ([ElementDraft.nonTerminal name].map _) _ from returns)
    obtain ⟨element, rfl, same⟩ := List.map_eq_singleton_iff.mp shape
    rw [eq_of_numbered_eq defined same] at derived
    exact acyclic name derived
  · intro acyclic name returns
    exact acyclic _ (draft.isRenaming.transGen_rewrites_iff.mpr ⟨_, returns, rfl⟩)

theorem GrammarDraft.IsWellFormed.hasUnitEdge (formed : draft.IsWellFormed) {source target : Symbol}
    (alone : LeavesAlone (Element.Expands draft.numbered) (.nonTerminal source) (.nonTerminal target)) :
    draft.HasUnitEdge (draft.names.getD source "") (draft.names.getD target "") := by
  obtain ⟨name, defined, rfl⟩ := exists_side_of_edge alone
  obtain ⟨sole, edge, same⟩ := draft.isRenaming.exists_leavesAlone
    (show LeavesAlone _ ((ElementDraft.nonTerminal name).numbered draft.names) _ from alone)
  cases sole with
  | nonTerminal other =>
    obtain rfl := Element.nonTerminal.inj same
    have known : other ∈ draft.names := by
      obtain ⟨front, back, known, -, -⟩ := edge
      obtain ⟨rule, member, -, shape⟩ := known.exists_draft
      exact mem_symbolNames.mpr (formed.defined rule member other (by simp [← shape]))
    simpa [List.getD, defined, known, HasUnitEdge] using edge
  | word text => cases same
  | kind kind => cases same
  | tag tag => cases same

end Cycles

section Building
variable {draft : GrammarDraft}

theorem GrammarDraft.IsWellFormed.resolvable (formed : draft.IsWellFormed)
    (few : draft.rules.length ≤ ruleBound) : Resolvable draft.names 0 [] draft.rules where
  low := by
    intro entry listed
    have inside := List.snd_lt_of_mem_zipIdx listed
    omega
  fresh := fun _ _ => List.not_mem_nil
  distinct := formed.distinct
  defined := fun rule member name inside => mem_symbolNames.mpr (formed.defined rule member name inside)

/-- Only a cycle can keep a well-formed draft with few rules from being built. -/
theorem GrammarDraft.IsWellFormed.build_eq (formed : draft.IsWellFormed)
    (few : draft.rules.length ≤ ruleBound) :
    (unitCycle? draft.numbered = none → ∃ grammar, draft.build = .ok grammar) ∧
      ∀ cycle, unitCycle? draft.numbered = some cycle →
        draft.build = .error (.cycle (cycle.map fun symbol => draft.names.getD symbol "")) := by
  obtain ⟨rule, member, started⟩ := formed.started
  have found := findIdx?_name_iff.mpr ⟨mem_symbolNames.mpr ⟨rule, member, rfl⟩, rfl⟩
  have resolved := resolveRules_eq_ok_iff.mpr ⟨formed.resolvable few, rfl⟩
  have filled : draft.rules.isEmpty = false := List.isEmpty_eq_false_iff.mpr formed.nonempty
  constructor
  · intro search
    simp [build, filled, started, found, resolved, search]
  · intro cycle search
    simp [build, filled, started, found, resolved, search]

theorem GrammarDraft.wellFormed_of_build {grammar : Grammar} (built : draft.build = .ok grammar) :
    draft.IsWellFormed ∧ unitCycle? draft.numbered = none := by
  simp only [build] at built
  repeat' split at built
  all_goals cases built
  next filled _ name started _ start found _ rules resolved _ search =>
    obtain ⟨resolvable, rfl⟩ := resolveRules_eq_ok_iff.mp resolved
    obtain ⟨rule, member, rfl⟩ := mem_symbolNames.mp (findIdx?_name_iff.mp found).1
    refine ⟨⟨by simpa using filled, ⟨rule, member, started⟩, ?_, resolvable.distinct⟩, search⟩
    exact fun rule member name inside => mem_symbolNames.mp (resolvable.defined rule member name inside)

end Building

/-- A draft is built exactly if all its names mean something and none derives itself; if only the latter
fails, it is refused with a closed walk along which each name may leave the next alone. -/
theorem build_exact (draft : GrammarDraft) (few : draft.rules.length < ruleBound) :
    ((∃ grammar, draft.build = .ok grammar) ↔ draft.IsWellFormed ∧ draft.IsAcyclic) ∧
      (draft.IsWellFormed → ¬ draft.IsAcyclic →
        ∃ path, draft.build = .error (.cycle path) ∧ IsClosedWalk draft.HasUnitEdge path) := by
  simp only [GrammarDraft.isAcyclic_iff]
  refine ⟨⟨?_, ?_⟩, ?_⟩
  · intro built
    obtain ⟨grammar, built⟩ := built
    exact GrammarDraft.wellFormed_of_build built
  · intro accepted
    exact (accepted.1.build_eq (Nat.le_of_lt few)).1 accepted.2
  · intro formed cyclic
    obtain ⟨cycle, search⟩ := Option.ne_none_iff_exists'.mp cyclic
    refine ⟨_, (formed.build_eq (Nat.le_of_lt few)).2 cycle search, ?_⟩
    exact (unitCycle?_walk search).map fun _ _ edge => formed.hasUnitEdge (mem_unitTargets_iff.mp edge)

/-- A phrase that may stand between two pauses, which may both be left out. -/
def pausedPhrase : GrammarDraft where
  key := ⟨"paused", "1"⟩
  start := some "phrase"
  rules :=
    [⟨none, "phrase", [.nonTerminal "pause", .nonTerminal "phrase", .nonTerminal "pause"], 0, none, ""⟩,
      ⟨none, "phrase", [.word "go"], 0, none, ""⟩, ⟨none, "pause", [], 0, none, ""⟩]

theorem pausedPhrase_refused :
    pausedPhrase.rules.length < ruleBound ∧ (¬ ∃ grammar, pausedPhrase.build = .ok grammar) ∧
      ∃ path, pausedPhrase.build = .error (.cycle path) ∧ IsClosedWalk pausedPhrase.HasUnitEdge path := by
  have few : pausedPhrase.rules.length < ruleBound := by decide
  have formed : pausedPhrase.IsWellFormed := by
    refine ⟨by decide, by decide, ?_, by decide⟩
    intro rule member name inside
    simp only [pausedPhrase, List.mem_cons, List.not_mem_nil, or_false] at member
    rcases member with rfl | rfl | rfl <;> simp at inside
    rcases inside with rfl | rfl | rfl <;> decide
  have silent := ElementDraft.Expands.rule
    (show ⟨none, "pause", [], 0, none, ""⟩ ∈ pausedPhrase.rules by decide)
  have around := ElementDraft.Expands.rule
    (show ⟨none, "phrase", [.nonTerminal "pause", .nonTerminal "phrase", .nonTerminal "pause"], 0, none,
      ""⟩ ∈ pausedPhrase.rules by decide)
  have returns : ¬ pausedPhrase.IsAcyclic := fun acyclic =>
    acyclic "phrase" (LeavesAlone.rewrites ⟨[.nonTerminal "pause"], [.nonTerminal "pause"], around,
      RewritesTo.expand [] [] silent, RewritesTo.expand [] [] silent⟩)
  obtain ⟨accepted, refused⟩ := build_exact pausedPhrase few
  exact ⟨few, fun built => returns (accepted.mp built).2, refused formed returns⟩

end Readings
