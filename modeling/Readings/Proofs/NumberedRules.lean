import Readings.Grammar.Build
import Readings.Proofs.Answers
import Readings.Proofs.UnitCycles
import Mathlib.Data.List.Basic

/-! The rules of a draft once their names are numbered. Resolving succeeds exactly if no rule is numbered
too high, no two rules share a name and every name on a right side stands on a left one; what it gives
then is the drafts themselves, with each name replaced by its number. -/

namespace Readings

def ElementDraft.numbered (names : List String) : ElementDraft → Element
  | .nonTerminal name => .nonTerminal (names.idxOf name)
  | .word text => .terminal (Terminal.word text).normalized
  | .kind name => .terminal (.kind name)
  | .tag name => .terminal (.tag name)

def RuleDraft.numbered (names : List String) (index : Nat) (draft : RuleDraft) : Rule where
  name := draft.nameAt index
  lhs := names.idxOf draft.lhs
  rhs := draft.rhs.map (ElementDraft.numbered names)
  priority := draft.priority
  action := draft.action
  description := draft.description

def numberedRules (names : List String) (index : Nat) (drafts : List RuleDraft) : List Rule :=
  (drafts.zipIdx index).map fun entry => entry.1.numbered names entry.2

def ruleNames (index : Nat) (drafts : List RuleDraft) : List String :=
  (drafts.zipIdx index).map fun entry => entry.1.nameAt entry.2

def RuleDraft.IsDefined (names : List String) (draft : RuleDraft) : Prop :=
  ∀ name, ElementDraft.nonTerminal name ∈ draft.rhs → name ∈ names

theorem mem_symbolNames {drafts : List RuleDraft} {name : String} :
    name ∈ symbolNames drafts ↔ ∃ draft ∈ drafts, draft.lhs = name := by
  simp only [symbolNames, List.mem_eraseDups, List.mem_map]

theorem findIdx?_name_iff {names : List String} {name : String} {symbol : Symbol} :
    names.findIdx? (· == name) = some symbol ↔ name ∈ names ∧ names.idxOf name = symbol := by
  rw [List.findIdx?_eq_some_iff_findIdx_eq, ← List.idxOf_lt_length_iff]
  constructor
  · intro found
    obtain ⟨inside, rfl⟩ := found
    exact ⟨inside, rfl⟩
  · intro known
    obtain ⟨inside, rfl⟩ := known
    exact ⟨inside, rfl⟩

theorem ElementDraft.resolve_eq_ok_iff {names : List String} {draft : ElementDraft}
    {element : Element} :
    draft.resolve names = .ok element ↔
      (∀ name, draft = .nonTerminal name → name ∈ names) ∧ element = draft.numbered names := by
  cases draft with
  | nonTerminal name =>
    simp only [resolve, numbered, nonTerminal.injEq, forall_eq']
    split
    next symbol found =>
      obtain ⟨known, rfl⟩ := findIdx?_name_iff.mp found
      simp [known, eq_comm]
    next missing =>
      have absent : name ∉ names := fun member => by
        simpa using List.findIdx?_eq_none_iff.mp missing name member
      simp [absent]
  | word text => simp [resolve, numbered, eq_comm]
  | kind name => simp [resolve, numbered, eq_comm]
  | tag name => simp [resolve, numbered, eq_comm]

theorem resolveElements_eq_ok_iff {names : List String} {drafts : List ElementDraft}
    {elements : List Element} :
    resolveElements names drafts = .ok elements ↔
      (∀ name, ElementDraft.nonTerminal name ∈ drafts → name ∈ names) ∧
        elements = drafts.map (ElementDraft.numbered names) := by
  induction drafts generalizing elements with
  | nil => simp [resolveElements, eq_comm]
  | cons draft drafts ih =>
    simp only [resolveElements, bind_eq_ok_iff, ElementDraft.resolve_eq_ok_iff, ih, pure, Except.pure,
      Except.ok.injEq, List.mem_cons, List.map_cons]
    constructor
    · intro resolved
      obtain ⟨element, ⟨first, rfl⟩, others, ⟨rest, rfl⟩, rfl⟩ := resolved
      refine ⟨?_, rfl⟩
      intro name member
      exact member.elim (fun same => first name same.symm) (rest name)
    · intro resolved
      obtain ⟨defined, rfl⟩ := resolved
      exact ⟨_, ⟨fun name same => defined name (Or.inl same.symm), rfl⟩, _,
        ⟨fun name member => defined name (Or.inr member), rfl⟩, rfl⟩

theorem RuleDraft.resolve_eq_ok_iff {names used : List String} {index : Nat} {draft : RuleDraft}
    {rule : Rule} :
    draft.resolve names index used = .ok rule ↔
      index < ruleBound ∧ draft.nameAt index ∉ used ∧ draft.IsDefined names ∧
        rule = draft.numbered names index := by
  simp only [resolve]
  split
  next high => simp [Nat.not_lt.mpr high]
  next low =>
    split
    next known =>
      have member : draft.nameAt index ∈ used := by simpa using known
      simp [member]
    next fresh =>
      have absent : draft.nameAt index ∉ used := by simpa using fresh
      simp only [Nat.not_le.mp low, absent, not_false_eq_true, true_and, IsDefined]
      split
      next symbol failed =>
        apply iff_of_false nofun
        intro resolved
        rw [resolveElements_eq_ok_iff.mpr ⟨resolved.1, rfl⟩] at failed
        cases failed
      next elements resolved =>
        obtain ⟨defined, rfl⟩ := resolveElements_eq_ok_iff.mp resolved
        simp only [Except.ok.injEq]
        exact ⟨fun same => ⟨defined, same.symm⟩, fun same => same.2.symm⟩

/-- What resolving some drafts from a place on, with some names in use, asks of them. -/
structure Resolvable (names : List String) (index : Nat) (used : List String)
    (drafts : List RuleDraft) : Prop where
  low : ∀ entry ∈ drafts.zipIdx index, entry.2 < ruleBound
  fresh : ∀ name ∈ ruleNames index drafts, name ∉ used
  distinct : (ruleNames index drafts).Nodup
  defined : ∀ draft ∈ drafts, draft.IsDefined names

theorem resolveRules_eq_ok_iff {names used : List String} {index : Nat} {drafts : List RuleDraft}
    {rules : List Rule} :
    resolveRules names index used drafts = .ok rules ↔
      Resolvable names index used drafts ∧ rules = numberedRules names index drafts := by
  induction drafts generalizing index used rules with
  | nil =>
    simp only [resolveRules, Except.ok.injEq, numberedRules, List.zipIdx_nil, List.map_nil]
    exact ⟨fun same => ⟨⟨by simp, by simp [ruleNames], by simp [ruleNames], by simp⟩, same.symm⟩,
      fun same => same.2.symm⟩
  | cons draft drafts ih =>
    simp only [resolveRules, bind_eq_ok_iff, RuleDraft.resolve_eq_ok_iff, ih, pure, Except.pure,
      Except.ok.injEq]
    constructor
    · intro resolved
      obtain ⟨rule, ⟨low, fresh, defined, rfl⟩, others, ⟨rest, rfl⟩, rfl⟩ := resolved
      have apart : ∀ name ∈ ruleNames (index + 1) drafts, name ≠ draft.nameAt index ∧ name ∉ used :=
        fun name member => by simpa [RuleDraft.numbered] using rest.fresh name member
      refine ⟨⟨?_, ?_, ?_, ?_⟩, rfl⟩
      · exact List.forall_mem_cons.mpr ⟨low, rest.low⟩
      · exact List.forall_mem_cons.mpr ⟨fresh, fun name member => (apart name member).2⟩
      · exact List.nodup_cons.mpr ⟨fun member => (apart _ member).1 rfl, rest.distinct⟩
      · exact List.forall_mem_cons.mpr ⟨defined, rest.defined⟩
    · intro resolved
      obtain ⟨⟨low, fresh, distinct, defined⟩, rfl⟩ := resolved
      have low := List.forall_mem_cons.mp low
      have fresh := List.forall_mem_cons.mp fresh
      have distinct := List.nodup_cons.mp distinct
      have defined := List.forall_mem_cons.mp defined
      refine ⟨_, ⟨low.1, fresh.1, defined.1, rfl⟩, _, ⟨⟨low.2, ?_, distinct.2, defined.2⟩, rfl⟩, rfl⟩
      intro name member used
      rcases List.mem_cons.mp used with rfl | known
      · exact distinct.1 member
      · exact fresh.2 name member known

/-- No symbol derives itself alone, and every left side has a name. -/
structure Grammar.IsBuilt (grammar : Grammar) : Prop where
  acyclic : unitCycle? grammar.rules.toList = none
  named : ∀ rule symbol, grammar.lhs? rule = some symbol → symbol < grammar.names.size

theorem GrammarDraft.isBuilt {draft : GrammarDraft} {grammar : Grammar}
    (built : draft.build = .ok grammar) : grammar.IsBuilt := by
  refine ⟨GrammarDraft.acyclic_of_build built, ?_⟩
  intro id symbol known
  obtain ⟨rule, found, rfl, -⟩ := Grammar.rule_of_lhs known
  simp only [GrammarDraft.build] at built
  repeat' split at built
  all_goals cases built
  next resolved _ _ =>
    obtain ⟨-, rfl⟩ := resolveRules_eq_ok_iff.mp resolved
    obtain ⟨entry, listed, rfl⟩ := List.mem_map.mp (show rule ∈ numberedRules _ _ _ by
      simpa using Array.mem_of_getElem? found)
    have known := mem_symbolNames.mpr ⟨entry.1, List.fst_mem_of_mem_zipIdx listed, rfl⟩
    simpa [RuleDraft.numbered] using List.idxOf_lt_length_iff.mpr known

end Readings
