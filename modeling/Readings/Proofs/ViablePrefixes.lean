import Readings.Proofs.Recognition
import Readings.Proofs.SententialForms

/-! Items and sentential forms. An item of a set at a position stands for a form of the start symbol that
begins with the tokens in front of the position, with the rest of its rule behind them; and in closed
sets every such form whose next element is a terminal has an item that waits for it. The trees of the
chart do not matter here: what stands behind the tokens may never derive any. -/

namespace Readings

open Relation (ReflTransGen)

/-- The elements are terminals, and they accept the tokens between two positions, one each. -/
inductive Spells (tokens : Array Token) : List Element → Nat → Nat → Prop where
  | nil {position : Nat} : Spells tokens [] position position
  | cons {terminal : Terminal} {token : Token} {elements : List Element} {position stop : Nat}
      (found : tokens[position]? = some token) (accepted : terminal.accepts token = true)
      (rest : Spells tokens elements (position + 1) stop) :
      Spells tokens (.terminal terminal :: elements) position stop

section
variable (grammar : Grammar)

def Grammar.HasForm (form : List Element) : Prop :=
  RewritesTo (Element.Expands grammar.rules.toList) [.nonTerminal grammar.start] form

/-- Some form of the start symbol begins with the tokens in front of a position, and goes on with a
terminal. -/
def Grammar.GoesOn (tokens : Array Token) (position : Nat) (terminal : Terminal) : Prop :=
  ∃ front back, grammar.HasForm (front ++ .terminal terminal :: back) ∧ Spells tokens front 0 position

/-- Some form of the start symbol begins with the tokens in front of a position. -/
def Grammar.Reaches (tokens : Array Token) (position : Nat) : Prop :=
  ∃ front back, grammar.HasForm (front ++ back) ∧ Spells tokens front 0 position

/-- Some form of the start symbol has the tokens in front of the position and then what is left of the
rule of the item. -/
def Item.IsViable (tokens : Array Token) (position : Nat) (item : Item) : Prop :=
  ∃ front back, grammar.HasForm (front ++ (grammar.rhs item.rule).drop item.dot ++ back) ∧
    Spells tokens front 0 position

end

variable {grammar : Grammar} {tokens : Array Token}

namespace Spells

theorem le {elements : List Element} {start stop : Nat} (spelled : Spells tokens elements start stop) :
    start ≤ stop := by
  induction spelled with
  | nil => exact Nat.le_refl _
  | cons _ _ _ ih => omega

theorem append {front back : List Element} {start middle stop : Nat}
    (before : Spells tokens front start middle) (behind : Spells tokens back middle stop) :
    Spells tokens (front ++ back) start stop := by
  induction before with
  | nil => exact behind
  | cons found accepted _ ih => exact .cons found accepted (ih behind)

theorem split {front back : List Element} {start stop : Nat}
    (spelled : Spells tokens (front ++ back) start stop) :
    ∃ middle, Spells tokens front start middle ∧ Spells tokens back middle stop := by
  induction front generalizing start with
  | nil => exact ⟨start, .nil, spelled⟩
  | cons element front ih =>
    cases spelled with
    | cons found accepted rest =>
      obtain ⟨middle, before, behind⟩ := ih rest
      exact ⟨middle, .cons found accepted before, behind⟩

theorem exists_last {elements : List Element} {stop : Nat}
    (spelled : Spells tokens elements 0 (stop + 1)) :
    ∃ front terminal token, elements = front ++ [.terminal terminal] ∧ Spells tokens front 0 stop ∧
      tokens[stop]? = some token ∧ terminal.accepts token = true := by
  rcases List.eq_nil_or_concat elements with rfl | ⟨front, last, rfl⟩
  · nomatch spelled
  · rw [List.concat_eq_append] at spelled ⊢
    obtain ⟨middle, before, behind⟩ := spelled.split
    cases behind with
    | cons found accepted rest =>
      cases rest
      exact ⟨front, _, _, rfl, before, found, accepted⟩

end Spells

theorem Grammar.expands_of_lhs {rule : RuleId} {symbol : Symbol}
    (known : grammar.lhs? rule = some symbol) :
    Element.Expands grammar.rules.toList (.nonTerminal symbol) (grammar.rhs rule) := by
  obtain ⟨definition, found, rfl, same⟩ := Grammar.rule_of_lhs known
  rw [same]
  exact .rule (by simpa using Array.mem_of_getElem? found)

theorem Grammar.exists_lhs_of_expands {element : Element} {elements : List Element}
    (known : Element.Expands grammar.rules.toList element elements) :
    ∃ rule symbol, element = .nonTerminal symbol ∧ grammar.lhs? rule = some symbol ∧
      grammar.rhs rule = elements := by
  cases known with
  | @rule definition member =>
    obtain ⟨rule, found⟩ := List.getElem?_of_mem member
    rw [Array.getElem?_toList] at found
    exact ⟨rule, definition.lhs, rfl, by simp [Grammar.lhs?, found], by simp [Grammar.rhs, found]⟩

mutual
theorem Derives.exists_spelling {element start stop tree} :
    Derives grammar tokens element start stop tree →
      ∃ form, RewritesTo (Element.Expands grammar.rules.toList) [element] form ∧
        Spells tokens form start stop
  | .token found accepted => ⟨_, RewritesTo.refl _, .cons found accepted .nil⟩
  | .application known below => by
    obtain ⟨form, derived, spelled⟩ := below.exists_spelling
    have first := RewritesTo.expand [] [] (Grammar.expands_of_lhs known)
    rw [List.nil_append, List.append_nil] at first
    exact ⟨form, first.trans derived, spelled⟩

theorem DerivesAll.exists_spelling {elements start stop trees} :
    DerivesAll grammar tokens elements start stop trees →
      ∃ form, RewritesTo (Element.Expands grammar.rules.toList) elements form ∧
        Spells tokens form start stop
  | .nil => ⟨[], RewritesTo.refl _, .nil⟩
  | .cons first rest => by
    obtain ⟨front, before, here⟩ := first.exists_spelling
    obtain ⟨back, behind, there⟩ := rest.exists_spelling
    exact ⟨front ++ back, before.append behind, here.append there⟩
end

private theorem Item.IsViable.advance {item : Item} {element : Element} {form : List Element}
    {middle position : Nat} (viable : item.IsViable grammar tokens middle)
    (next : item.next? grammar = some element)
    (derived : RewritesTo (Element.Expands grammar.rules.toList) [element] form)
    (spelled : Spells tokens form middle position) :
    item.advance.IsViable grammar tokens position := by
  obtain ⟨front, back, known, before⟩ := viable
  refine ⟨front ++ form, back, known.trans ?_, before.append spelled⟩
  rw [Item.drop_of_next next]
  have moved := derived.around front ((grammar.rhs item.rule).drop (item.dot + 1) ++ back)
  simpa only [List.append_assoc, List.nil_append, List.cons_append, Item.advance] using moved

private theorem Item.IsViable.initial {waiter : Item} {rule : RuleId} {symbol : Symbol} {position : Nat}
    (viable : waiter.IsViable grammar tokens position)
    (next : waiter.next? grammar = some (.nonTerminal symbol)) (known : grammar.lhs? rule = some symbol) :
    (Item.initial rule position).IsViable grammar tokens position := by
  obtain ⟨front, back, formed, before⟩ := viable
  refine ⟨front, (grammar.rhs waiter.rule).drop (waiter.dot + 1) ++ back, formed.trans ?_, before⟩
  rw [Item.drop_of_next next]
  have expanded := RewritesTo.expand front ((grammar.rhs waiter.rule).drop (waiter.dot + 1) ++ back)
    (Grammar.expands_of_lhs known)
  simpa only [Item.initial, List.drop_zero, List.append_assoc, List.cons_append] using expanded

theorem Grown.viable {state : ChartState} (grown : Grown grammar tokens state) :
    ∀ position, ∀ item ∈ (setAt state.sets position).items, item.IsViable grammar tokens position := by
  induction grown with
  | initial =>
    intro position item member
    cases position <;> exact absurd member List.not_mem_nil
  | @put state position entry before reason ih =>
    have sound := before.sound
    intro other item member
    rw [ChartState.setAt_put] at member
    split at member
    next same =>
      subst same
      rcases ChartSet.mem_items_insert.mp member with old | rfl
      · exact ih _ item old
      · generalize entry.1 = item, entry.2 = link at reason
        cases reason with
        | predicted known wanted =>
          rcases wanted with ⟨rfl, rfl⟩ | ⟨waiter, waiting, next⟩
          · refine ⟨[], [], ?_, .nil⟩
            exact RewritesTo.expand [] [] (Grammar.expands_of_lhs known)
          · exact (ih _ waiter waiting).initial next known
        | scanned inside next found accepted =>
          exact (ih _ _ inside).advance next (RewritesTo.refl _) (.cons found accepted .nil)
        | completed waiting next known done =>
          obtain ⟨tree, derived⟩ := (sound.grounded _ _ done).derives known
          obtain ⟨form, formed, spelled⟩ := derived.exists_spelling
          exact (ih _ _ waiting).advance next formed spelled
    next => exact ih other item member

mutual
/-- A form that spells tokens stands for a tree of them. -/
theorem Unfolds.exists_derives {element : Element} {form : List Element} {start stop : Nat}
    (spelled : Spells tokens form start stop) :
    Unfolds (Element.Expands grammar.rules.toList) element form →
      ∃ tree, Derives grammar tokens element start stop tree
  | .stay => by
    cases spelled with
    | cons found accepted rest =>
      cases rest
      exact ⟨_, .token found accepted⟩
  | .expand known below => by
    obtain ⟨rule, symbol, rfl, left, same⟩ := Grammar.exists_lhs_of_expands known
    obtain ⟨trees, derived⟩ := below.exists_derives spelled
    exact ⟨_, .application left (same ▸ derived)⟩

theorem UnfoldsAll.exists_derives {elements form : List Element} {start stop : Nat}
    (spelled : Spells tokens form start stop) :
    UnfoldsAll (Element.Expands grammar.rules.toList) elements form →
      ∃ trees, DerivesAll grammar tokens elements start stop trees
  | .nil => by
    cases spelled
    exact ⟨[], .nil⟩
  | .cons here there => by
    obtain ⟨middle, before, behind⟩ := spelled.split
    obtain ⟨tree, first⟩ := here.exists_derives before
    obtain ⟨trees, rest⟩ := there.exists_derives behind
    exact ⟨tree :: trees, .cons first rest⟩
end

def Awaits (grammar : Grammar) (sets : Array ChartSet) (position : Nat) (terminal : Terminal) :
    Prop :=
  ∃ item ∈ (setAt sets position).items, item.next? grammar = some (.terminal terminal)

mutual
private theorem Unfolds.awaits {sets : Array ChartSet} (saturated : Saturated grammar tokens sets)
    {item : Item} {element : Element} {form front back : List Element} {terminal : Terminal}
    {start stop : Nat} (member : item ∈ (setAt sets start).items)
    (next : item.next? grammar = some element) (shape : form = front ++ .terminal terminal :: back)
    (spelled : Spells tokens front start stop) :
    Unfolds (Element.Expands grammar.rules.toList) element form → Awaits grammar sets stop terminal
  | .stay => by
    rcases List.singleton_eq_append_iff.mp shape with ⟨rfl, same⟩ | ⟨-, impossible⟩
    · cases spelled
      obtain ⟨rfl, -⟩ := List.cons_eq_cons.mp same
      exact ⟨item, member, next⟩
    · exact absurd impossible (List.cons_ne_nil _ _)
  | .expand known below => by
    obtain ⟨rule, symbol, rfl, left, same⟩ := Grammar.exists_lhs_of_expands known
    have initial := (saturated.closed start).predicts item member symbol rule next left
    exact below.awaits saturated 0 (ChartSet.mem_items_of_link initial) same shape spelled

private theorem UnfoldsAll.awaits {sets : Array ChartSet} (saturated : Saturated grammar tokens sets)
    {rule : RuleId} (dot : Nat) {origin : Nat} {elements form front back : List Element}
    {terminal : Terminal} {start stop : Nat} (member : ⟨rule, dot, origin⟩ ∈ (setAt sets start).items)
    (rest : (grammar.rhs rule).drop dot = elements) (shape : form = front ++ .terminal terminal :: back)
    (spelled : Spells tokens front start stop) :
    UnfoldsAll (Element.Expands grammar.rules.toList) elements form → Awaits grammar sets stop terminal
  | .nil => absurd shape (by simp)
  | @UnfoldsAll.cons _ _ element elements first others here there => by
    have next : Item.next? grammar ⟨rule, dot, origin⟩ = some element := by
      rw [Item.next?, ← List.head?_drop, rest]
      rfl
    have remains : (grammar.rhs rule).drop (dot + 1) = elements := by
      rw [← List.tail_drop, rest, List.tail_cons]
    have moves : ∀ position, Spells tokens first start position →
        ⟨rule, dot + 1, origin⟩ ∈ (setAt sets position).items := by
      intro position spelled
      obtain ⟨tree, derived⟩ := here.exists_derives spelled
      exact ChartSet.mem_items_of_link (saturated.link_mem member next derived)
    rcases List.append_eq_append_iff.mp shape with ⟨middle, rfl, tail⟩ | ⟨middle, whole, tail⟩
    · obtain ⟨position, before, behind⟩ := spelled.split
      exact there.awaits saturated (dot + 1) (moves position before) remains tail behind
    · cases middle with
      | nil =>
        rw [List.append_nil] at whole
        exact there.awaits saturated (dot + 1) (moves stop (whole ▸ spelled)) remains tail.symm .nil
      | cons other middle =>
        obtain ⟨rfl, -⟩ := List.cons_eq_cons.mp tail
        exact here.awaits saturated member next whole spelled
end

theorem Saturated.awaits_iff {state : ChartState} (grown : Grown grammar tokens state)
    (saturated : Saturated grammar tokens state.sets) {position : Nat} {terminal : Terminal} :
    Awaits grammar state.sets position terminal ↔
      grammar.GoesOn tokens position terminal := by
  constructor
  · intro awaited
    obtain ⟨item, member, next⟩ := awaited
    obtain ⟨front, back, formed, spelled⟩ := grown.viable position item member
    rw [Item.drop_of_next next, List.append_assoc] at formed
    exact ⟨front, _, formed, spelled⟩
  · intro goes
    obtain ⟨front, back, formed, spelled⟩ := goes
    generalize shape : front ++ Element.terminal terminal :: back = form at formed
    cases unfolds_iff.mpr formed with
    | stay =>
      rcases List.append_eq_singleton_iff.mp shape with ⟨-, impossible⟩ | ⟨-, impossible⟩
      · cases impossible
      · cases impossible
    | expand known below =>
      obtain ⟨rule, symbol, same, left, rfl⟩ := Grammar.exists_lhs_of_expands known
      cases same
      exact below.awaits saturated 0 (saturated.started rule left) rfl shape.symm spelled

end Readings
