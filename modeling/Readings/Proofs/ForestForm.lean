import Readings.Forest.Json

/-! Forests read back from their JSON form. Every reader takes what its writer makes of the values that fit
their words, and makes no others; so a forest is read back as it was, with its lists in their order and its
texts to the letter, exactly if all its numbers fit. -/

namespace Readings

namespace Json

variable {α : Type} {write : α → Json} {read : Json → Option α} {fits : α → Prop}

/-- A reader takes what a writer makes of the values that fit, and makes no others of anything. -/
structure Agrees (write : α → Json) (read : Json → Option α) (fits : α → Prop) : Prop where
  reads : ∀ {a : α}, fits a → read (write a) = some a
  fits : ∀ {value : Json} {a : α}, read value = some a → fits a

theorem agrees_nat (bound : Nat) : Agrees nat (toNat? bound) (· < bound) where
  reads := fun below => by simp [toNat?, nat, Number.toInt?, below]
  fits := fun {value a} made => by
    cases value with
    | number value =>
      simp only [toNat?] at made
      split at made
      next n _ =>
        split at made
        next below => exact Option.some.inj made ▸ below
        next => cases made
      next => cases made
    | _ => cases made

theorem agrees_word : Agrees nat toWord? (· < UInt32.size) := agrees_nat UInt32.size

theorem agrees_count : Agrees nat toCount? (· < UInt64.size) := agrees_nat UInt64.size

theorem toInt?_whole (i : Int) : (Number.mk (i < 0) i.natAbs 0 true).toInt? = some i := by
  by_cases negative : i < 0
  · have some : i.natAbs ≠ 0 := by omega
    have back : -(i.natAbs : Int) = i := by omega
    simp only [Number.toInt?, negative, some, back, decide_true, decide_false, Bool.and_false,
      Bool.not_false, Bool.and_true, if_true]
  · have back : (i.natAbs : Int) = i := by omega
    simp only [Number.toInt?, negative, back, decide_false, Bool.false_and, Bool.not_false,
      Bool.and_true, if_true, Bool.false_eq_true, if_false]

theorem agrees_int :
    Agrees int toSigned? (fun i => Int32.minValue.toInt ≤ i ∧ i ≤ Int32.maxValue.toInt) where
  reads := fun within => by
    simp only [toSigned?, int, toInt?_whole]
    exact if_pos within
  fits := fun {value i} made => by
    cases value with
    | number value =>
      simp only [toSigned?] at made
      split at made
      next j _ =>
        split at made
        next within => exact Option.some.inj made ▸ within
        next => cases made
      next => cases made
    | _ => cases made

theorem agrees_text : Agrees text toText? (fun _ => True) :=
  ⟨fun _ => rfl, fun _ => trivial⟩

theorem agrees_symbol : Agrees (fun symbol => nat (symbol + 1)) symbolOfJson?
    (fun symbol => symbol + 1 < UInt32.size) where
  reads := fun below => by
    simp [symbolOfJson?, agrees_word.reads below]
  fits := fun {value symbol} made => by
    obtain ⟨number, counted, made⟩ := Option.bind_eq_some_iff.mp made
    cases number with
    | zero => cases made
    | succ number =>
      obtain rfl := Option.some.inj made
      exact agrees_word.fits counted

theorem Agrees.list (agrees : Agrees write read fits) :
    Agrees (fun items => array (items.map write)) (toList? read) (∀ a ∈ ·, fits a) where
  reads := fun {items} all => by
    simp only [toList?, toItems?, Option.bind_some]
    induction items with
    | nil => rfl
    | cons a items ih =>
      obtain ⟨first, rest⟩ := List.forall_mem_cons.mp all
      simp [agrees.reads first, ih rest]
  fits := fun {value items} made => by
    obtain ⟨values, -, listed⟩ := Option.bind_eq_some_iff.mp made
    clear made
    induction values generalizing items with
    | nil =>
      cases listed
      exact fun _ member => absurd member List.not_mem_nil
    | cons value values ih =>
      simp only [List.mapM_cons, Option.bind_eq_bind, Option.bind_eq_some_iff] at listed
      obtain ⟨a, first, rest, others, same⟩ := listed
      cases same
      exact List.forall_mem_cons.mpr ⟨agrees.fits first, ih others⟩

theorem Agrees.required (agrees : Agrees write read fits) {field : Option Json} {a : α}
    (made : required? read field = some a) : fits a := by
  obtain ⟨value, -, made⟩ := Option.bind_eq_some_iff.mp made
  exact agrees.fits made

/-- A field that may be null is read back if no value is written as null. -/
theorem Agrees.nullable (agrees : Agrees write read fits) (solid : ∀ a, write a ≠ null) (record : Json)
    {content : Option α} (all : ∀ a ∈ content, fits a) :
    nullable? read record (some (optional write content)) = some content := by
  cases content with
  | none => rfl
  | some a =>
    have made := agrees.reads (all a rfl)
    simp only [nullable?, optional, toOption?]
    split
    next written => exact absurd written (solid a)
    next => rw [made, Option.map_some]

theorem Agrees.fits_nullable (agrees : Agrees write read fits) {record : Json} {field : Option Json}
    {content : Option α} (made : nullable? read record field = some content) :
    ∀ a ∈ content, fits a := by
  intro a member
  obtain rfl : content = some a := member
  cases field with
  | none =>
    simp only [nullable?] at made
    split at made <;> cases made
  | some value =>
    simp only [nullable?, toOption?] at made
    split at made
    next => cases made
    next =>
      obtain ⟨b, made, same⟩ := Option.map_eq_some_iff.mp made
      exact agrees.fits (made.trans same)

end Json

def TokenSpan.Fits (span : TokenSpan) : Prop := span.start < UInt64.size ∧ span.stop < UInt64.size

theorem TokenSpan.agrees : Json.Agrees toJson ofJson? Fits where
  reads := fun {span} fits => by
    simp [ofJson?, toJson, Json.record?, Json.required?, Json.agrees_count.reads fits.1,
      Json.agrees_count.reads fits.2]
  fits := fun {value span} made => by
    obtain ⟨fields, -, made⟩ := Option.bind_eq_some_iff.mp made
    split at made
    next start stop =>
      simp only [Option.bind_eq_bind, Option.bind_eq_some_iff] at made
      obtain ⟨first, started, last, stopped, same⟩ := made
      cases same
      exact ⟨Json.agrees_count.required started, Json.agrees_count.required stopped⟩
    next => cases made

namespace ForestNode

/-- Nodes, rules and symbols, which are numbered from one, have words of 32 bits, and so have priorities
with their sign; positions have 64. -/
def Fits : ForestNode → Prop
  | .choice symbol span alternatives =>
    symbol + 1 < UInt32.size ∧ span.Fits ∧ ∀ id ∈ alternatives, id < UInt32.size
  | .application rule symbol span children priority _ =>
    rule < UInt32.size ∧ symbol + 1 < UInt32.size ∧ span.Fits ∧ (∀ id ∈ children, id < UInt32.size) ∧
      Int32.minValue.toInt ≤ priority ∧ priority ≤ Int32.maxValue.toInt
  | .leaf token span => token < UInt64.size ∧ span.Fits

private theorem reads {node : ForestNode} (fits : node.Fits) : ofJson? node.toJson = some node := by
  cases node with
  | choice symbol span alternatives =>
    obtain ⟨named, placed, listed⟩ := fits
    simp [ofJson?, toJson, split?, choiceOfJson?, Json.record?, Json.required?, Json.toText?,
      Json.agrees_symbol.reads named, TokenSpan.agrees.reads placed, Json.agrees_word.list.reads listed]
  | application rule symbol span children priority action =>
    obtain ⟨ruled, named, placed, listed, ranked⟩ := fits
    have acts (record : Json) : Json.nullable? Json.toText? record (some (Json.optional Json.text action)) =
        some action :=
      Json.agrees_text.nullable (by simp) record fun _ _ => trivial
    simp [ofJson?, toJson, split?, applicationOfJson?, Json.record?, Json.required?, Json.toText?,
      Json.agrees_word.reads ruled, Json.agrees_symbol.reads named, TokenSpan.agrees.reads placed,
      Json.agrees_word.list.reads listed, Json.agrees_int.reads ranked, acts]
  | leaf token span =>
    obtain ⟨counted, placed⟩ := fits
    simp [ofJson?, toJson, split?, leafOfJson?, Json.record?, Json.required?, Json.toText?,
      Json.agrees_count.reads counted, TokenSpan.agrees.reads placed]

private theorem choice_fits {value : Json} {node : ForestNode} (made : choiceOfJson? value = some node) :
    node.Fits := by
  obtain ⟨fields, -, made⟩ := Option.bind_eq_some_iff.mp made
  split at made
  next =>
    simp only [Option.bind_eq_bind, Option.bind_eq_some_iff] at made
    obtain ⟨symbol, named, span, placed, alternatives, listed, same⟩ := made
    cases same
    exact ⟨Json.agrees_symbol.required named, TokenSpan.agrees.required placed,
      Json.agrees_word.list.required listed⟩
  next => cases made

private theorem application_fits {value : Json} {node : ForestNode}
    (made : applicationOfJson? value = some node) : node.Fits := by
  obtain ⟨fields, -, made⟩ := Option.bind_eq_some_iff.mp made
  split at made
  next =>
    simp only [Option.bind_eq_bind, Option.bind_eq_some_iff] at made
    obtain ⟨rule, ruled, symbol, named, span, placed, children, listed, priority, ranked, action, -,
      same⟩ := made
    cases same
    exact ⟨Json.agrees_word.required ruled, Json.agrees_symbol.required named,
      TokenSpan.agrees.required placed, Json.agrees_word.list.required listed,
      Json.agrees_int.required ranked⟩
  next => cases made

private theorem leaf_fits {value : Json} {node : ForestNode} (made : leafOfJson? value = some node) :
    node.Fits := by
  obtain ⟨fields, -, made⟩ := Option.bind_eq_some_iff.mp made
  split at made
  next =>
    simp only [Option.bind_eq_bind, Option.bind_eq_some_iff] at made
    obtain ⟨token, counted, span, placed, same⟩ := made
    cases same
    exact ⟨Json.agrees_count.required counted, TokenSpan.agrees.required placed⟩
  next => cases made

theorem agrees : Json.Agrees toJson ofJson? Fits where
  reads := reads
  fits := fun {value node} made => by
    obtain ⟨parts, -, made⟩ := Option.bind_eq_some_iff.mp made
    split at made
    next => exact choice_fits made
    next => exact application_fits made
    next => exact leaf_fits made
    next => cases made

end ForestNode

namespace Forest

structure Fits (forest : Forest) : Prop where
  nodes : ∀ node ∈ forest.nodes, node.Fits
  root : ∀ id ∈ forest.root, id < UInt32.size
  tokenCount : forest.tokenCount < UInt64.size

theorem agrees : Json.Agrees toJson ofJson? Fits where
  reads := fun {forest} fits => by
    have listed := ForestNode.agrees.list.reads fun node member =>
      fits.nodes node (Array.mem_toList_iff.mp member)
    have rooted (record : Json) := Json.agrees_word.nullable (by simp [Json.nat]) record fits.root
    simp [ofJson?, toJson, Json.record?, Json.required?, listed, rooted,
      Json.agrees_count.reads fits.tokenCount]
  fits := fun {value forest} made => by
    obtain ⟨fields, -, made⟩ := Option.bind_eq_some_iff.mp made
    split at made
    next =>
      simp only [Option.bind_eq_bind, Option.bind_eq_some_iff] at made
      obtain ⟨nodes, listed, root, rooted, tokenCount, counted, same⟩ := made
      cases same
      refine ⟨fun node member => ?_, Json.agrees_word.fits_nullable rooted,
        Json.agrees_count.required counted⟩
      exact ForestNode.agrees.list.required listed node (List.mem_toArray.mp member)
    next => cases made

/-- A forest is read back from its JSON form as it was, whatever its nodes refer to, exactly if its numbers
fit their words. -/
theorem json_exact (forest : Forest) : ofJson? forest.toJson = some forest ↔ forest.Fits :=
  ⟨agrees.fits, agrees.reads⟩

/-- The last of all numbers, a span that ends before it starts, a node that refers to itself and a root that
is not there. -/
example :
    let forest : Forest :=
      { nodes := #[.application 4294967295 4294967294 ⟨7, 2⟩ [0, 0] (-2147483648) (some "\"\n"),
          .choice 0 ⟨0, 18446744073709551615⟩ [], .application 0 0 ⟨0, 0⟩ [1] 0 none]
        root := some 9, tokenCount := 0 }
    ofJson? forest.toJson = some forest := by
  decide +kernel

end Forest

end Readings
