import Readings.Derivation.Printer
import Readings.Proofs.Answers
import Readings.Proofs.Recognition

/-! Leftmost derivations. What is still to be expanded in a form are the rule applications of its trees,
the leftmost first and each in front of those below it, so a step takes the first of them away and leaves
the others in their order. The number of steps is that of the applications, and the steps of a derivation
show its applications in pre-order. -/

namespace Readings

namespace Tree

@[simp] theorem nodesOf_leaves (leaves : List Nat) : nodesOf (leaves.map .leaf) = [] := by
  simp [nodesOf_eq_flatMap, List.flatMap_map, nodes]

@[simp] theorem yieldsOf_leaves (leaves : List Nat) : yieldsOf (leaves.map .leaf) = leaves := by
  simp [yieldsOf_eq_flatMap, List.flatMap_map, yields]

/-- A form and the one after it: a node with only tokens in front of it gives way to its children. -/
inductive Expands (node : Derivation) : List Tree → List Tree → Prop where
  | at (read : List Nat) (behind : List Tree) :
      Expands node (read.map .leaf ++ node.tree :: behind) (read.map .leaf ++ node.children ++ behind)

/-- Forms that lead from one form to the leaves below it, each by expanding one of the nodes in turn. -/
structure IsExpansion (form : List Tree) (nodes : List Derivation) (leaves : List Nat)
    (forms : List (List Tree)) : Prop where
  length : forms.length = nodes.length + 1
  first : forms.head? = some form
  steps : ∀ (index : Nat) (node : Derivation), nodes[index]? = some node →
    ∃ before after, forms[index]? = some before ∧ forms[index + 1]? = some after ∧
      Expands node before after
  last : forms.getLast? = some (leaves.map .leaf)

variable {form next : List Tree} {node : Derivation}

theorem expandLeftmost?_leaves (leaves : List Nat) : expandLeftmost? (leaves.map .leaf) = none := by
  induction leaves with
  | nil => rfl
  | cons leaf leaves ih => rw [List.map_cons, expandLeftmost?, ih, Option.map_none]

theorem Expands.expandLeftmost?_eq (step : Expands node form next) :
    expandLeftmost? form = some next := by
  obtain ⟨read, behind⟩ := step
  induction read with
  | nil => rfl
  | cons leaf read ih =>
    rw [List.map_cons, List.cons_append, expandLeftmost?, ih, Option.map_some]
    rfl

/-- A step takes away the first of the nodes that are still to be expanded, and no other. -/
theorem Expands.nodesOf_eq (step : Expands node form next) : nodesOf form = node :: nodesOf next := by
  obtain ⟨read, behind⟩ := step
  simp [nodesOf, nodes, Derivation.tree]

theorem Expands.yieldsOf_eq (step : Expands node form next) : yieldsOf form = yieldsOf next := by
  obtain ⟨read, behind⟩ := step
  simp [yieldsOf, yields, Derivation.tree]

theorem leaves_or_expands (form : List Tree) :
    form = (yieldsOf form).map .leaf ∨ ∃ node next, Expands node form next := by
  induction form with
  | nil => exact Or.inl rfl
  | cons tree form ih =>
    cases tree with
    | node rule lhs span children =>
      exact Or.inr ⟨⟨rule, lhs, span, children⟩, _, .at [] form⟩
    | leaf token =>
      rcases ih with read | ⟨node, next, read, behind⟩
      · refine Or.inl ?_
        rw [yieldsOf, yields, List.map_append, ← read]
        rfl
      · exact Or.inr ⟨node, _, .at (token :: read) behind⟩

/-- Induction on the steps that are left: they are as many as the nodes that are still to be expanded. -/
@[elab_as_elim]
theorem expansion_induction {motive : List Tree → Prop}
    (leaves : ∀ leaves : List Nat, motive (leaves.map .leaf))
    (step : ∀ node form next, Expands node form next → motive next → motive form) (form : List Tree) :
    motive form := by
  generalize left : nodesOf form = nodes
  induction nodes generalizing form with
  | nil =>
    rcases leaves_or_expands form with read | ⟨node, next, expands⟩
    · exact read ▸ leaves _
    · cases expands.nodesOf_eq.symm.trans left
  | cons first nodes ih =>
    rcases leaves_or_expands form with read | ⟨node, next, expands⟩
    · exact read ▸ leaves _
    · exact step node form next expands (ih next (List.cons.inj (expands.nodesOf_eq.symm.trans left)).2)

theorem formsFrom_leaves (fuel : Nat) (leaves : List Nat) :
    formsFrom fuel (leaves.map .leaf) = [leaves.map .leaf] := by
  cases fuel with
  | zero => rfl
  | succ fuel => rw [formsFrom, expandLeftmost?_leaves]

theorem Expands.formsFrom_eq (step : Expands node form next) (fuel : Nat) :
    formsFrom (fuel + 1) form = form :: formsFrom fuel next := by
  rw [formsFrom, step.expandLeftmost?_eq]

theorem IsExpansion.leaves (leaves : List Nat) :
    IsExpansion (leaves.map .leaf) [] leaves [leaves.map .leaf] :=
  ⟨rfl, rfl, by simp, rfl⟩

theorem IsExpansion.cons {nodes : List Derivation} {leaves : List Nat} {forms : List (List Tree)}
    (step : Expands node form next) (rest : IsExpansion next nodes leaves forms) :
    IsExpansion form (node :: nodes) leaves (form :: forms) := by
  obtain ⟨following, rfl⟩ := List.head?_eq_some_iff.mp rest.first
  refine ⟨by rw [List.length_cons, rest.length, List.length_cons], rfl, ?_, ?_⟩
  · intro index other found
    cases index with
    | zero =>
      cases found
      exact ⟨form, next, rfl, rfl, step⟩
    | succ index => exact rest.steps index other found
  · rw [List.getLast?_cons_cons, rest.last]

theorem isExpansion_formsFrom (form : List Tree) {fuel : Nat} (enough : (nodesOf form).length ≤ fuel) :
    IsExpansion form (nodesOf form) (yieldsOf form) (formsFrom fuel form) := by
  induction form using expansion_induction generalizing fuel with
  | leaves leaves =>
    rw [formsFrom_leaves, nodesOf_leaves, yieldsOf_leaves]
    exact .leaves leaves
  | step node form next expands ih =>
    rw [expands.nodesOf_eq, List.length_cons] at enough
    obtain ⟨fewer, rfl⟩ := Nat.exists_eq_add_of_le' (Nat.le_trans (Nat.le_add_left 1 _) enough)
    rw [expands.formsFrom_eq, expands.nodesOf_eq, expands.yieldsOf_eq]
    exact .cons expands (ih (by omega))

theorem formsFrom_of_le (form : List Tree) {fuel : Nat} (enough : (nodesOf form).length ≤ fuel) :
    formsFrom fuel form = formsFrom (nodesOf form).length form := by
  induction form using expansion_induction generalizing fuel with
  | leaves leaves => rw [formsFrom_leaves, formsFrom_leaves]
  | step node form next expands ih =>
    rw [expands.nodesOf_eq, List.length_cons] at enough ⊢
    obtain ⟨fewer, rfl⟩ := Nat.exists_eq_add_of_le' (Nat.le_trans (Nat.le_add_left 1 _) enough)
    rw [expands.formsFrom_eq, expands.formsFrom_eq, ih (by omega)]

theorem nodesOf_subset {fuel : Nat} {other : List Tree} (member : other ∈ formsFrom fuel form) :
    nodesOf other ⊆ nodesOf form := by
  induction form using expansion_induction generalizing fuel with
  | leaves leaves =>
    rw [formsFrom_leaves, List.mem_singleton] at member
    exact member ▸ List.Subset.refl _
  | step node form next expands ih =>
    cases fuel with
    | zero =>
      obtain rfl := List.mem_singleton.mp member
      exact List.Subset.refl _
    | succ fuel =>
      rw [expands.formsFrom_eq] at member
      rcases List.mem_cons.mp member with rfl | later
      · exact List.Subset.refl _
      · exact List.Subset.trans (ih later) (expands.nodesOf_eq ▸ List.subset_cons_self _ _)

end Tree

section Shown
variable {grammar : Grammar} {tokens : Array Token}

theorem Grammar.symbolName?_eq_some_iff {symbol : Symbol} {name : String} :
    grammar.symbolName? symbol = some name ↔ grammar.symbolName symbol = .ok name := by
  rw [Grammar.symbolName, Grammar.symbolName?]
  cases grammar.names[symbol]? <;> simp

theorem Grammar.exists_symbolName_iff {symbol : Symbol} :
    (∃ name, grammar.symbolName symbol = .ok name) ↔ symbol < grammar.names.size := by
  simp only [← Grammar.symbolName?_eq_some_iff, Grammar.symbolName?]
  rw [← Option.isSome_iff_exists, isSome_getElem?]

theorem Tree.exists_renderForm_iff {form : List Tree} :
    (∃ shown, renderForm grammar tokens form = .ok shown) ↔
      ∀ node : Derivation, node.tree ∈ form → node.lhs < grammar.names.size := by
  have parts : (∃ shown, renderForm grammar tokens form = .ok shown) ↔
      ∃ parts, form.mapM (renderPending grammar tokens) = .ok parts := by
    simp only [renderForm, bind_eq_ok_iff]
    exact ⟨fun ⟨_, parts, shown, _⟩ => ⟨parts, shown⟩, fun ⟨parts, shown⟩ => ⟨_, parts, shown, rfl⟩⟩
  rw [parts]
  constructor
  · rintro ⟨parts, shown⟩ node member
    exact Grammar.exists_symbolName_iff.mp (answered_of_mapM_ok shown member)
  · intro named
    refine exists_mapM_ok fun tree member => ?_
    cases tree with
    | leaf token => exact ⟨_, rfl⟩
    | node rule lhs span children =>
      exact Grammar.exists_symbolName_iff.mpr (named ⟨rule, lhs, span, children⟩ member)

theorem Tree.renderForm_tree (derivation : Derivation) :
    renderForm grammar tokens [derivation.tree] = grammar.symbolName derivation.lhs := by
  simp only [renderForm, List.mapM_cons, List.mapM_nil, Derivation.tree, renderPending]
  cases grammar.symbolName derivation.lhs with
  | error cause => rfl
  | ok name => rfl

theorem Tree.renderForm_leaves (leaves : List Nat) :
    renderForm grammar tokens (leaves.map .leaf) = .ok
      (if leaves = [] then "ε" else " ".intercalate (leaves.map (Token.textAt tokens))) := by
  have parts : (leaves.map Tree.leaf).mapM (renderPending grammar tokens) =
      .ok (leaves.map (Token.textAt tokens)) := by
    rw [List.mapM_map]
    exact mapM_ok _ fun leaf _ => rfl
  simp only [renderForm, parts, bind, Except.bind, List.isEmpty_iff, List.map_eq_nil_iff]
  rfl

end Shown

namespace Derivation

variable (grammar : Grammar) (tokens : Array Token) (derivation : Derivation)

/-- The steps of a derivation as they are shown, one for each of its forms. -/
structure IsShown (steps : List String) : Prop where
  length : steps.length = derivation.nodes.length + 1
  first : steps.head? = grammar.symbolName? derivation.lhs
  forms : List.Forall₂ (fun form step => Tree.renderForm grammar tokens form = .ok step)
    derivation.forms steps
  last : steps.getLast? = some (if derivation.tree.yields = [] then "ε"
    else " ".intercalate (derivation.tree.yields.map (Token.textAt tokens)))

variable {grammar tokens derivation}

theorem nodesOf_tree : Tree.nodesOf [derivation.tree] = derivation.nodes := List.append_nil _

theorem yieldsOf_tree : Tree.yieldsOf [derivation.tree] = derivation.tree.yields := List.append_nil _

theorem isExpansion_forms :
    Tree.IsExpansion [derivation.tree] derivation.nodes derivation.tree.yields derivation.forms := by
  rw [forms, ← nodesOf_tree, ← yieldsOf_tree]
  exact Tree.isExpansion_formsFrom _ (Nat.le_refl _)

/-- The symbols that the forms name are those of the nodes: each node is expanded in one of them. -/
theorem exists_trace_iff :
    (∃ steps, derivation.trace grammar tokens = .ok steps) ↔
      ∀ node ∈ derivation.nodes, node.lhs < grammar.names.size := by
  constructor
  · rintro ⟨steps, traced⟩ node member
    obtain ⟨index, found⟩ := List.getElem?_of_mem member
    obtain ⟨_, _, before, -, ⟨read, behind⟩⟩ := isExpansion_forms.steps index node found
    have shown := answered_of_mapM_ok traced (List.mem_of_getElem? before)
    exact Tree.exists_renderForm_iff.mp shown node (by simp)
  · intro named
    refine exists_mapM_ok fun form member => Tree.exists_renderForm_iff.mpr fun node inside => ?_
    have left : node ∈ Tree.nodesOf form := by
      rw [Tree.nodesOf_eq_flatMap]
      exact List.mem_flatMap.mpr ⟨_, inside, List.mem_cons_self⟩
    exact named node (nodesOf_tree ▸ Tree.nodesOf_subset member left)

private theorem head_of_forall₂ {α β : Type} {related : α → β → Prop} {values : List α} {results : List β}
    (each : List.Forall₂ related values results) {value : α} (first : values.head? = some value) :
    ∃ result, results.head? = some result ∧ related value result := by
  cases each with
  | nil => cases first
  | cons here _ =>
    cases first
    exact ⟨_, rfl, here⟩

theorem isShown_of_trace {steps : List String} (traced : derivation.trace grammar tokens = .ok steps) :
    derivation.IsShown grammar tokens steps := by
  have shown := forall₂_of_mapM_ok traced
  have expansion := derivation.isExpansion_forms
  refine ⟨shown.length_eq ▸ expansion.length, ?_, shown, ?_⟩
  · obtain ⟨step, first, rendered⟩ := head_of_forall₂ shown expansion.first
    rw [Tree.renderForm_tree] at rendered
    rw [first, Grammar.symbolName?_eq_some_iff.mpr rendered]
  · obtain ⟨step, last, rendered⟩ := head_of_forall₂ (List.rel_reverse shown)
      (List.head?_reverse.trans expansion.last)
    rw [Tree.renderForm_leaves] at rendered
    rw [← List.head?_reverse, last, Except.ok.inj rendered]

/-- The steps of a derivation apply its rules in pre-order, each at the leftmost place, and they are all
there is to do, however many more are allowed; they can be shown if the symbols of the nodes have names. -/
theorem trace_exact (grammar : Grammar) (tokens : Array Token) (derivation : Derivation) :
    Tree.IsExpansion [derivation.tree] derivation.nodes derivation.tree.yields derivation.forms ∧
      (∀ fuel, derivation.nodes.length ≤ fuel →
        Tree.formsFrom fuel [derivation.tree] = derivation.forms) ∧
      ((∃ steps, derivation.trace grammar tokens = .ok steps) ↔
        ∀ node ∈ derivation.nodes, node.lhs < grammar.names.size) ∧
      ∀ steps, derivation.trace grammar tokens = .ok steps → derivation.IsShown grammar tokens steps := by
  refine ⟨isExpansion_forms, fun fuel enough => ?_, exists_trace_iff, fun _ => isShown_of_trace⟩
  rw [← nodesOf_tree] at enough
  rw [forms, Tree.formsFrom_of_le _ enough, nodesOf_tree]

def elidedSum : Derivation :=
  ⟨0, 0, ⟨0, 3⟩, [.node 2 1 ⟨0, 0⟩ [], .node 1 0 ⟨0, 1⟩ [.leaf 0], .leaf 1, .node 1 0 ⟨2, 3⟩ [.leaf 2]]⟩

theorem elidedSum_traced :
    let tokens := threeOnes.take 2
    elidedSum.trace sums tokens =
        .ok ["sum", "mark sum plus sum", "sum plus sum", "one plus sum", "one plus ?"] ∧
      elidedSum.IsShown sums tokens
        ["sum", "mark sum plus sum", "sum plus sum", "one plus sum", "one plus ?"] := by
  have traced : elidedSum.trace sums (threeOnes.take 2) =
      .ok ["sum", "mark sum plus sum", "sum plus sum", "one plus sum", "one plus ?"] := by
    decide +kernel
  exact ⟨traced, (trace_exact sums (threeOnes.take 2) elidedSum).2.2.2 _ traced⟩

end Derivation

end Readings
