import Readings.Proofs.Capped
import Readings.Proofs.MilestoneOrder
import Readings.Proofs.Recognition

/-! The child lists that milestones have when no limit cuts them. Link by link they are made from those of
the sources. In a saturated chart they are exactly the lists of trees that the elements in front of the
dot derive, and none of them comes twice. -/

namespace Readings

variable {grammar : Grammar} {tokens : Array Token} {chart : Chart}

theorem Derivation.tree_injective : Function.Injective Derivation.tree :=
  fun _ _ same => Option.some.inj (congrArg Tree.toDerivation? same)

def Chart.sourceGraph (chart : Chart) (grammar : Grammar) (milestone : Milestone) :
    Option (List Milestone) :=
  some (chart.sources grammar milestone)

theorem Chart.leads_iff {milestone source : Milestone} :
    Leads (chart.sourceGraph grammar) milestone source ↔ source ∈ chart.sources grammar milestone :=
  leads_some_iff

namespace Extraction

def treesOf (grammar : Grammar) (lists : Milestone → List (List Tree)) (milestone : Milestone) :
    List Derivation :=
  match grammar.lhs? milestone.item.rule with
  | none => []
  | some lhs =>
    (lists milestone).map fun children =>
      { rule := milestone.item.rule, lhs, span := ⟨milestone.item.origin, milestone.position⟩, children }

def linkLists (grammar : Grammar) (lists : Milestone → List (List Tree)) (milestone : Milestone) :
    Link → List (List Tree)
  | .predicted => []
  | .scanned token =>
    pairs (fun first last => first ++ [last]) (lists (milestone.before token)) [Tree.leaf token]
  | .completed split child =>
    pairs (fun first last => first ++ [Derivation.tree last]) (lists (milestone.before split))
      (treesOf grammar lists (Milestone.complete grammar child split milestone.position))

def fullLists (chart : Chart) (grammar : Grammar) (lists : Milestone → List (List Tree))
    (milestone : Milestone) : List (List Tree) :=
  if milestone.item.dot = 0 then [[]]
  else (chart.links milestone.position milestone.item).flatMap (linkLists grammar lists milestone)

theorem treesOf_congr {lists others : Milestone → List (List Tree)} {milestone : Milestone}
    (same : lists milestone = others milestone) :
    treesOf grammar lists milestone = treesOf grammar others milestone := by
  simp only [treesOf, same]

theorem fullLists_congr {lists others : Milestone → List (List Tree)} {milestone : Milestone}
    (same : ∀ source ∈ chart.sources grammar milestone, lists source = others source) :
    fullLists chart grammar lists milestone = fullLists chart grammar others milestone := by
  simp only [fullLists]
  split
  next => rfl
  next moved =>
    apply List.flatMap_congr
    intro link member
    have agree : ∀ source ∈ Chart.linkSources grammar milestone link, lists source = others source := by
      intro source inside
      apply same source
      rw [Chart.sources, if_neg moved]
      exact List.mem_flatMap.mpr ⟨link, member, inside⟩
    cases link with
    | predicted => rfl
    | scanned token => simp only [linkLists, agree _ List.mem_cons_self]
    | completed split child =>
      simp only [linkLists, agree _ List.mem_cons_self,
        treesOf_congr (agree _ (List.mem_cons_of_mem _ List.mem_cons_self))]

theorem mem_treesOf {lists : Milestone → List (List Tree)} {milestone : Milestone} {symbol : Symbol}
    (known : grammar.lhs? milestone.item.rule = some symbol) {derivation : Derivation} :
    derivation ∈ treesOf grammar lists milestone ↔
      ∃ children ∈ lists milestone, derivation = ⟨milestone.item.rule, symbol,
        ⟨milestone.item.origin, milestone.position⟩, children⟩ := by
  simp only [treesOf, known, List.mem_map, eq_comm]

theorem nodup_treesOf {lists : Milestone → List (List Tree)} {milestone : Milestone}
    (distinct : (lists milestone).Nodup) : (treesOf grammar lists milestone).Nodup := by
  simp only [treesOf]
  split
  next => exact List.nodup_nil
  next => exact distinct.map fun _ _ same => congrArg Derivation.children same

theorem length_treesOf {lists : Milestone → List (List Tree)} {milestone : Milestone} {symbol : Symbol}
    (known : grammar.lhs? milestone.item.rule = some symbol) :
    (treesOf grammar lists milestone).length = (lists milestone).length := by
  simp only [treesOf, known, List.length_map]

/-- The last tree of a list tells the link that gave it. -/
theorem link_of_mem {lists : Milestone → List (List Tree)} {milestone : Milestone} {link : Link}
    {children : List Tree} (member : children ∈ linkLists grammar lists milestone link) :
    ∃ front last, children = front ++ [last] ∧ last.link = link := by
  cases link with
  | predicted => exact absurd member List.not_mem_nil
  | scanned token =>
    obtain ⟨front, -, last, only, rfl⟩ := mem_pairs.mp member
    obtain rfl := List.mem_singleton.mp only
    exact ⟨front, _, rfl, rfl⟩
  | completed split child =>
    obtain ⟨front, -, last, made, rfl⟩ := mem_pairs.mp member
    refine ⟨front, _, rfl, ?_⟩
    simp only [treesOf] at made
    split at made
    next => exact absurd made List.not_mem_nil
    next =>
      obtain ⟨_, -, rfl⟩ := List.mem_map.mp made
      rfl

theorem nodup_linkLists {lists : Milestone → List (List Tree)} {milestone : Milestone} {link : Link}
    (distinct : ∀ source ∈ Chart.linkSources grammar milestone link, (lists source).Nodup) :
    (linkLists grammar lists milestone link).Nodup := by
  cases link with
  | predicted => exact List.nodup_nil
  | scanned token =>
    apply nodup_pairs (distinct _ List.mem_cons_self) (List.nodup_singleton _)
    intro a b c d same
    simpa using same
  | completed split child =>
    apply nodup_pairs (distinct _ List.mem_cons_self)
      (nodup_treesOf (distinct _ (List.mem_cons_of_mem _ List.mem_cons_self)))
    intro a b c d same
    obtain ⟨front, last⟩ := List.append_inj' same rfl
    exact ⟨front, Derivation.tree_injective (List.cons.inj last).1⟩

end Extraction

section
variable (grammar : Grammar) (tokens : Array Token) (lists : Milestone → List (List Tree))

/-- The lists at a milestone are those that the elements in front of its dot derive, each once. -/
structure Exact (milestone : Milestone) : Prop where
  distinct : (lists milestone).Nodup
  derives : ∀ children, children ∈ lists milestone ↔
    DerivesAll grammar tokens ((grammar.rhs milestone.item.rule).take milestone.item.dot)
      milestone.item.origin milestone.position children

end

variable {lists : Milestone → List (List Tree)}

theorem Exact.length_pos (sound : Sound grammar tokens chart.sets) {milestone : Milestone}
    (member : milestone ∈ chart.milestones) (exact : Exact grammar tokens lists milestone) :
    0 < (lists milestone).length := by
  obtain ⟨children, derived⟩ := (sound.grounded _ _ (Chart.mem_milestones.mp member)).derived
  exact List.length_pos_of_mem ((exact.derives children).mpr derived)

theorem Exact.mem_treesOf_iff {milestone : Milestone} {symbol : Symbol}
    (exact : Exact grammar tokens lists milestone)
    (whole : milestone.item.dot = (grammar.rhs milestone.item.rule).length)
    (known : grammar.lhs? milestone.item.rule = some symbol) {derivation : Derivation} :
    derivation ∈ Extraction.treesOf grammar lists milestone ↔
      derivation.rule = milestone.item.rule ∧ Derives grammar tokens (.nonTerminal symbol)
        milestone.item.origin milestone.position derivation.tree := by
  rw [Extraction.mem_treesOf known]
  have all : (grammar.rhs milestone.item.rule).take milestone.item.dot =
      grammar.rhs milestone.item.rule := by rw [whole, List.take_length]
  constructor
  · intro listed
    obtain ⟨children, inside, rfl⟩ := listed
    exact ⟨rfl, .application known (all ▸ (exact.derives children).mp inside)⟩
  · obtain ⟨rule, lhs, span, children⟩ := derivation
    intro same
    obtain ⟨rfl, derived⟩ := same
    cases derived with
    | application same below => exact ⟨children, (exact.derives children).mpr (all.symm ▸ below), rfl⟩

private theorem derives_advance {item : Item} {element : Element}
    (next : item.next? grammar = some element) {position : Nat} {front : List Tree} {last : Tree} :
    DerivesAll grammar tokens ((grammar.rhs item.rule).take (item.dot + 1)) item.origin position
        (front ++ [last]) ↔
      ∃ middle, DerivesAll grammar tokens ((grammar.rhs item.rule).take item.dot) item.origin middle front ∧
        Derives grammar tokens element middle position last := by
  rw [Item.take_advance next, derivesAll_concat_iff]
  constructor
  · intro parts
    obtain ⟨middle, before, behind, same, derived⟩ := parts
    obtain ⟨rfl, only⟩ := List.append_inj' same rfl
    exact ⟨middle, List.singleton_inj.mp only ▸ derived⟩
  · intro parts
    obtain ⟨middle, derived⟩ := parts
    exact ⟨middle, front, last, rfl, derived⟩

theorem fullLists_advance (chart : Chart) (position : Nat) (item : Item) :
    Extraction.fullLists chart grammar lists ⟨position, item.advance⟩ =
      ((setAt chart.sets position).links item.advance).flatMap
        (Extraction.linkLists grammar lists ⟨position, item.advance⟩) := by
  rw [← Chart.links_eq]
  rfl

theorem sources_advance (grammar : Grammar) (chart : Chart) (position : Nat) (item : Item) :
    chart.sources grammar ⟨position, item.advance⟩ =
      ((setAt chart.sets position).links item.advance).flatMap
        (Chart.linkSources grammar ⟨position, item.advance⟩) := by
  rw [← Chart.links_eq]
  rfl

private def ExactAt (grammar : Grammar) (tokens : Array Token) (lists : Milestone → List (List Tree))
    (milestones : List Milestone) : Prop :=
  ∀ milestone ∈ milestones, Exact grammar tokens lists milestone

/-- What a link gives are the lists whose last tree has that link. -/
private theorem mem_linkLists_iff (sound : Sound grammar tokens chart.sets) {position : Nat}
    {item : Item} {link : Link} (linked : link ∈ (setAt chart.sets position).links item.advance)
    (exact : ExactAt grammar tokens lists (Chart.linkSources grammar ⟨position, item.advance⟩ link))
    {children : List Tree} :
    children ∈ Extraction.linkLists grammar lists ⟨position, item.advance⟩ link ↔
      ∃ front last, children = front ++ [last] ∧ last.link = link ∧
        DerivesAll grammar tokens ((grammar.rhs item.rule).take (item.dot + 1)) item.origin position
          children := by
  generalize place : item.advance = advanced at linked
  cases sound.justified _ _ _ linked with
  | predicted => cases place
  | @scanned before terminal token start inside next found accepted =>
    obtain rfl : item = before := Item.advance_injective place
    have lists_before : Exact grammar tokens lists ⟨start, item⟩ := exact _ List.mem_cons_self
    simp only [Extraction.linkLists, mem_pairs, List.mem_singleton, exists_eq_left]
    constructor
    · intro made
      obtain ⟨front, listed, rfl⟩ := made
      refine ⟨front, _, rfl, rfl, (derives_advance next).mpr ⟨start, ?_, .token found accepted⟩⟩
      exact (lists_before.derives front).mp listed
    · intro ends
      obtain ⟨front, last, rfl, link, derived⟩ := ends
      obtain ⟨middle, early, final⟩ := (derives_advance next).mp derived
      cases final
      cases link
      exact ⟨front, (lists_before.derives front).mpr early, rfl⟩
  | @completed waiter child symbol split _ waiting next known done =>
    obtain rfl : item = waiter := Item.advance_injective place
    have lists_before : Exact grammar tokens lists ⟨split, item⟩ := exact _ List.mem_cons_self
    have lists_child : Exact grammar tokens lists ⟨position, Item.whole grammar child split⟩ :=
      exact _ (List.mem_cons_of_mem _ List.mem_cons_self)
    simp only [Extraction.linkLists, mem_pairs]
    constructor
    · intro made
      obtain ⟨front, listed, last, made, rfl⟩ := made
      have below := ((lists_child.mem_treesOf_iff rfl known).mp made).2
      obtain ⟨children, -, rfl⟩ := (Extraction.mem_treesOf known).mp made
      refine ⟨front, _, rfl, rfl, (derives_advance next).mpr ⟨split, ?_, below⟩⟩
      exact (lists_before.derives front).mp listed
    · intro ends
      obtain ⟨front, last, rfl, link, derived⟩ := ends
      obtain ⟨middle, early, final⟩ := (derives_advance next).mp derived
      cases final with
      | @application rule _ _ _ children same below =>
        obtain ⟨rfl, rfl⟩ : middle = split ∧ rule = child := by simpa [Tree.link] using link
        refine ⟨front, (lists_before.derives front).mpr early,
          ⟨rule, symbol, ⟨middle, position⟩, children⟩, ?_, rfl⟩
        exact (lists_child.mem_treesOf_iff rfl known).mpr ⟨rfl, .application known below⟩

private theorem exact_initial {rule : RuleId} {origin position : Nat}
    (grounded : Grounded grammar tokens chart.sets position ⟨rule, 0, origin⟩)
    (solves : lists ⟨position, ⟨rule, 0, origin⟩⟩ = [[]]) :
    Exact grammar tokens lists ⟨position, ⟨rule, 0, origin⟩⟩ := by
  obtain ⟨children, derived⟩ := grounded.derived
  simp only [List.take_zero] at derived
  cases derived
  refine ⟨solves ▸ List.nodup_singleton [], ?_⟩
  intro children
  rw [solves, List.mem_singleton]
  constructor
  · intro same
    subst same
    exact .nil
  · intro derived
    simp only [List.take_zero] at derived
    cases derived
    rfl

private theorem exact_advance (saturated : Saturated grammar tokens chart.sets) {position : Nat}
    {item : Item} (member : item.advance ∈ (setAt chart.sets position).items)
    (solves : lists ⟨position, item.advance⟩ =
      Extraction.fullLists chart grammar lists ⟨position, item.advance⟩)
    (exact : ∀ link ∈ (setAt chart.sets position).links item.advance,
      ExactAt grammar tokens lists (Chart.linkSources grammar ⟨position, item.advance⟩ link)) :
    Exact grammar tokens lists ⟨position, item.advance⟩ := by
  have sound := saturated.sound
  rw [fullLists_advance] at solves
  constructor
  · rw [solves]
    apply List.nodup_flatMap.mpr
    constructor
    · intro link linked
      exact Extraction.nodup_linkLists fun source inside => (exact link linked source inside).distinct
    · apply (sound.different position item.advance).imp
      intro link other differ children here there
      obtain ⟨_, _, rfl, rfl⟩ := Extraction.link_of_mem here
      obtain ⟨_, _, same, rfl⟩ := Extraction.link_of_mem there
      obtain ⟨-, only⟩ := List.append_inj' same rfl
      exact differ (congrArg Tree.link (List.singleton_inj.mp only))
  · intro children
    rw [solves, List.mem_flatMap]
    constructor
    · intro made
      obtain ⟨link, linked, inside⟩ := made
      obtain ⟨_, _, -, -, derived⟩ := (mem_linkLists_iff sound linked (exact link linked)).mp inside
      exact derived
    · intro derived
      have grounded := sound.grounded _ _ member
      obtain ⟨element, next⟩ : ∃ element, item.next? grammar = some element :=
        ⟨_, List.getElem?_eq_getElem (Nat.lt_of_succ_le grounded.short)⟩
      obtain ⟨middle, front, last, rfl, before, final⟩ :=
        derivesAll_concat_iff.mp (Item.take_advance next ▸ derived)
      have early : item ∈ (setAt chart.sets middle).items :=
        saturated.mem_of_derives grounded.rooted (Nat.le_of_succ_le grounded.short) before
      have linked := saturated.link_mem early next final
      exact ⟨last.link, linked,
        (mem_linkLists_iff sound linked (exact _ linked)).mpr ⟨front, last, rfl, rfl, derived⟩⟩

/-- Lists are exact at a milestone if they are at its sources. -/
theorem Exact.step (saturated : Saturated grammar tokens chart.sets) {milestone : Milestone}
    (member : milestone ∈ chart.milestones)
    (solves : lists milestone = Extraction.fullLists chart grammar lists milestone)
    (sources : ∀ source ∈ chart.sources grammar milestone, Exact grammar tokens lists source) :
    Exact grammar tokens lists milestone := by
  obtain ⟨position, rule, dot, origin⟩ := milestone
  rw [Chart.mem_milestones] at member
  cases dot with
  | zero => exact exact_initial (saturated.sound.grounded _ _ member) solves
  | succ dot =>
    refine @exact_advance _ _ _ _ saturated position ⟨rule, dot, origin⟩ member solves ?_
    intro link linked source inside
    apply sources source
    rw [show Item.mk rule (dot + 1) origin = Item.advance ⟨rule, dot, origin⟩ from rfl, sources_advance]
    exact List.mem_flatMap.mpr ⟨link, linked, inside⟩

end Readings
