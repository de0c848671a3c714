import Readings.Proofs.ChartSets
import Readings.Proofs.ParseTree

/-! Every link in a chart under construction has a reason in the chart. From the reasons it follows that
an item stands behind trees of the elements in front of its dot, whether or not the construction ends. -/

namespace Readings

def Item.whole (grammar : Grammar) (rule : RuleId) (origin : Nat) : Item :=
  ⟨rule, (grammar.rhs rule).length, origin⟩

section
variable (grammar : Grammar) (tokens : Array Token)

/-- Why a link leads to an item of the set at a position. -/
inductive Justified (sets : Array ChartSet) : Nat → Item → Link → Prop where
  | predicted {rule : RuleId} {symbol : Symbol} {position : Nat}
      (known : grammar.lhs? rule = some symbol)
      (wanted : position = 0 ∧ symbol = grammar.start ∨ ∃ waiter ∈ (setAt sets position).items,
        waiter.next? grammar = some (.nonTerminal symbol)) :
      Justified sets position (Item.initial rule position) .predicted
  | scanned {item : Item} {terminal : Terminal} {token : Token} {position : Nat}
      (before : item ∈ (setAt sets position).items)
      (next : item.next? grammar = some (.terminal terminal))
      (found : tokens[position]? = some token) (accepted : terminal.accepts token = true) :
      Justified sets (position + 1) item.advance (.scanned position)
  | completed {waiter : Item} {child : RuleId} {symbol : Symbol} {split position : Nat}
      (waiting : waiter ∈ (setAt sets split).items)
      (next : waiter.next? grammar = some (.nonTerminal symbol))
      (known : grammar.lhs? child = some symbol)
      (done : Item.whole grammar child split ∈ (setAt sets position).items) :
      Justified sets position waiter.advance (.completed split child)

/-- The states that a construction can be in: every link was added for a reason. -/
inductive Grown : ChartState → Prop where
  | initial : Grown .initial
  | put {state : ChartState} {position : Nat} {entry : Item × Link} (before : Grown state)
      (reason : Justified grammar tokens state.sets position entry.1 entry.2) :
      Grown (state.put position entry)

/-- What an item of the set at a position stands for. -/
structure Grounded (sets : Array ChartSet) (position : Nat) (item : Item) : Prop where
  known : ∃ symbol, grammar.lhs? item.rule = some symbol
  short : item.dot ≤ (grammar.rhs item.rule).length
  inside : position ≤ tokens.size
  rooted : Item.initial item.rule item.origin ∈ (setAt sets item.origin).items
  derived : ∃ children, DerivesAll grammar tokens ((grammar.rhs item.rule).take item.dot)
    item.origin position children

/-- The sets hold every item and every link once, and all of them with reason. -/
structure Sound (sets : Array ChartSet) : Prop where
  distinct : ∀ position, (setAt sets position).items.Nodup
  different : ∀ position item, ((setAt sets position).links item).Nodup
  justified : ∀ position item link, link ∈ (setAt sets position).links item →
    Justified grammar tokens sets position item link
  grounded : ∀ position, ∀ item ∈ (setAt sets position).items,
    Grounded grammar tokens sets position item

end

variable {grammar : Grammar} {tokens : Array Token}

theorem Grounded.ordered {sets : Array ChartSet} {position : Nat} {item : Item}
    (grounded : Grounded grammar tokens sets position item) : item.origin ≤ position := by
  obtain ⟨_, derived⟩ := grounded.derived
  exact derived.le

theorem Grounded.eq_whole {sets : Array ChartSet} {position : Nat} {item : Item}
    (grounded : Grounded grammar tokens sets position item) (complete : item.next? grammar = none) :
    item = Item.whole grammar item.rule item.origin := by
  have long : (grammar.rhs item.rule).length ≤ item.dot := List.getElem?_eq_none_iff.mp complete
  have short := grounded.short
  have dot : item.dot = (grammar.rhs item.rule).length := by omega
  simp only [Item.whole, ← dot]

theorem Grounded.derives {sets : Array ChartSet} {rule : RuleId} {symbol : Symbol} {split position : Nat}
    (grounded : Grounded grammar tokens sets position (Item.whole grammar rule split))
    (known : grammar.lhs? rule = some symbol) :
    ∃ tree, Derives grammar tokens (.nonTerminal symbol) split position tree := by
  obtain ⟨children, derived⟩ := grounded.derived
  simp only [Item.whole, List.take_length] at derived
  exact ⟨_, .application known derived⟩

def Covers (sets others : Array ChartSet) : Prop :=
  ∀ position, (setAt sets position).items ⊆ (setAt others position).items

theorem covers_put (state : ChartState) (position : Nat) (entry : Item × Link) :
    Covers state.sets (state.put position entry).sets := by
  intro other item member
  rw [ChartState.setAt_put]
  split
  next same => exact ChartSet.mem_items_insert.mpr (Or.inl (same ▸ member))
  next => exact member

theorem Justified.mono {sets others : Array ChartSet} (covers : Covers sets others) {position : Nat}
    {item : Item} {link : Link} (reason : Justified grammar tokens sets position item link) :
    Justified grammar tokens others position item link := by
  cases reason with
  | predicted known wanted =>
    refine .predicted known (wanted.imp id ?_)
    exact fun ⟨waiter, member, next⟩ => ⟨waiter, covers _ member, next⟩
  | scanned before next found accepted => exact .scanned (covers _ before) next found accepted
  | completed waiting next known done => exact .completed (covers _ waiting) next known (covers _ done)

theorem Grounded.mono {sets others : Array ChartSet} (covers : Covers sets others) {position : Nat}
    {item : Item} (grounded : Grounded grammar tokens sets position item) :
    Grounded grammar tokens others position item :=
  { grounded with rooted := covers _ grounded.rooted }

theorem Item.take_advance {item : Item} {element : Element} (next : item.next? grammar = some element) :
    (grammar.rhs item.rule).take (item.dot + 1) = (grammar.rhs item.rule).take item.dot ++ [element] := by
  rw [List.take_add_one, show (grammar.rhs item.rule)[item.dot]? = some element from next,
    Option.toList_some]

theorem Item.drop_of_next {item : Item} {element : Element} (next : item.next? grammar = some element) :
    (grammar.rhs item.rule).drop item.dot = element :: (grammar.rhs item.rule).drop (item.dot + 1) := by
  obtain ⟨inside, same⟩ := List.getElem?_eq_some_iff.mp next
  rw [← same, List.getElem_cons_drop]

private theorem Grounded.advance {sets : Array ChartSet} {middle position : Nat} {item : Item}
    {element : Element} {tree : Tree} (grounded : Grounded grammar tokens sets middle item)
    (next : item.next? grammar = some element)
    (last : Derives grammar tokens element middle position tree) :
    Grounded grammar tokens sets position item.advance := by
  obtain ⟨children, derived⟩ := grounded.derived
  have inside : item.dot < (grammar.rhs item.rule).length := (List.getElem?_eq_some_iff.mp next).1
  refine ⟨grounded.known, inside, last.inside grounded.inside, grounded.rooted, children ++ [tree], ?_⟩
  rw [show item.advance.dot = item.dot + 1 from rfl, show item.advance.rule = item.rule from rfl,
    Item.take_advance next]
  exact derivesAll_concat_iff.mpr ⟨middle, children, tree, rfl, derived, last⟩

private theorem Justified.grounded {sets others : Array ChartSet}
    (sound : ∀ position, ∀ item ∈ (setAt sets position).items,
      Grounded grammar tokens sets position item) (covers : Covers sets others)
    {position : Nat} {item : Item} {link : Link}
    (reason : Justified grammar tokens sets position item link)
    (member : item ∈ (setAt others position).items) :
    Grounded grammar tokens others position item := by
  cases reason with
  | predicted known wanted =>
    refine ⟨⟨_, known⟩, Nat.zero_le _, ?_, member, [], .nil⟩
    rcases wanted with ⟨rfl, -⟩ | ⟨waiter, waiting, -⟩
    · exact Nat.zero_le _
    · exact (sound _ _ waiting).inside
  | scanned before next found accepted =>
    exact ((sound _ _ before).mono covers).advance next (.token found accepted)
  | completed waiting next known done =>
    obtain ⟨tree, derived⟩ := (sound _ _ done).derives known
    exact ((sound _ _ waiting).mono covers).advance next derived

theorem Grown.sound {state : ChartState} (grown : Grown grammar tokens state) :
    Sound grammar tokens state.sets := by
  induction grown with
  | initial =>
    have empty : ∀ position, setAt ChartState.initial.sets position = .empty := by
      intro position
      cases position <;> rfl
    constructor
    all_goals
      intro position
      simp [empty]
  | @put state position entry before reason ih =>
    have covers := covers_put state position entry
    constructor
    · intro other
      rw [ChartState.setAt_put]
      split
      · exact ChartSet.nodup_items_insert (ih.distinct position) _ _
      · exact ih.distinct other
    · intro other
      rw [ChartState.setAt_put]
      split
      · exact ChartSet.nodup_links_insert (ih.different position) _ _
      · exact ih.different other
    · intro other item link member
      rw [ChartState.setAt_put] at member
      split at member
      next same =>
        subst same
        rcases ChartSet.mem_links_insert.mp member with known | ⟨rfl, rfl⟩
        · exact (ih.justified _ _ _ known).mono covers
        · exact reason.mono covers
      next => exact (ih.justified _ _ _ member).mono covers
    · intro other item member
      have present := member
      rw [ChartState.setAt_put] at member
      split at member
      next same =>
        subst same
        rcases ChartSet.mem_items_insert.mp member with known | rfl
        · exact (ih.grounded _ _ known).mono covers
        · exact reason.grounded ih.grounded covers present
      next => exact (ih.grounded _ _ member).mono covers

theorem Grown.putAll {state : ChartState} (grown : Grown grammar tokens state) {position : Nat}
    {entries : List (Item × Link)}
    (reasons : ∀ entry ∈ entries, Justified grammar tokens state.sets position entry.1 entry.2) :
    Grown grammar tokens (entries.foldl (ChartState.put position) state) := by
  induction entries generalizing state with
  | nil => exact grown
  | cons entry entries ih =>
    apply ih (grown.put (reasons entry List.mem_cons_self))
    intro other member
    exact (reasons other (List.mem_cons_of_mem _ member)).mono (covers_put state position entry)

end Readings
