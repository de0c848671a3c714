/-! Lists that take only so many values. They keep the first values offered and note whether one was
turned away. -/

namespace Readings

structure Capped (α : Type) where
  values : List α
  /-- A value was offered when the list was full. -/
  cut : Bool
deriving Repr

namespace Capped

def empty {α : Type} : Capped α := ⟨[], false⟩

/-- Offers values one by one to a list of at most `limit`. -/
def offer {α : Type} (limit : Nat) (list : Capped α) (values : List α) : Capped α :=
  let room := limit - list.values.length
  ⟨list.values ++ values.take room, list.cut || decide (room < values.length)⟩

/-- The first `room` of the values `combine a b`, each `a` with every `b` in turn. -/
def products {α β γ : Type} (combine : α → β → γ) (seconds : List β) : Nat → List α → List γ
  | _, [] => []
  | room, first :: firsts =>
    let here := (seconds.take room).map (combine first)
    here ++ products combine seconds (room - here.length) firsts

/-- Offers every `combine a b`, each `a` with every `b` in turn. -/
def offerProducts {α β γ : Type} (limit : Nat) (list : Capped γ) (combine : α → β → γ)
    (firsts : List α) (seconds : List β) : Capped γ :=
  let room := limit - list.values.length
  ⟨list.values ++ products combine seconds room firsts,
    list.cut || decide (room < firsts.length * seconds.length)⟩

/-- Replaces the values by their combinations with others, of which it keeps the first `limit`. -/
def cross {α β γ : Type} (limit : Nat) (list : Capped α) (combine : α → β → γ) (seconds : List β) :
    Capped γ :=
  offerProducts limit ⟨[], list.cut⟩ combine list.values seconds

end Capped

end Readings
