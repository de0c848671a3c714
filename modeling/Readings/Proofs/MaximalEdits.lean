import Readings.Proofs.SeenTokens

/-! What a diff says of two token lists. They begin with its leading tokens and end with its trailing ones,
apart from those, and have no longer piece in common at either end. There is only one such diff, so it
reads the same from the current list to the previous one; and what lies between the ends is what one list
has in the place of the other. -/

namespace Readings

theorem length_le_commonPrefix {shared prints others : List Fingerprint} (here : shared <+: prints)
    (there : shared <+: others) : shared.length ≤ commonPrefix prints others := by
  induction shared generalizing prints others with
  | nil => exact Nat.zero_le _
  | cons first shared ih =>
    obtain ⟨rest, rfl⟩ := here
    obtain ⟨others, rfl⟩ := there
    rw [List.cons_append, List.cons_append, commonPrefix, if_pos rfl]
    exact Nat.succ_le_succ (ih (List.prefix_append _ _) (List.prefix_append _ _))

theorem take_of_le_commonPrefix {prints others : List Fingerprint} {count : Nat}
    (fewer : count ≤ commonPrefix prints others) : prints.take count = others.take count := by
  have same := congrArg (List.take count) (take_commonPrefix prints others)
  rwa [List.take_take, List.take_take, Nat.min_eq_left fewer] at same

namespace TokenDiff

/-- As much of two lists as they have in common at both ends, and the pieces between. -/
structure IsMaximal (previous current : List Fingerprint) (diff : TokenDiff) : Prop where
  apart : diff.leading + diff.trailing ≤ min previous.length current.length
  leading : previous.take diff.leading = current.take diff.leading
  trailing : previous.drop (previous.length - diff.trailing) =
    current.drop (current.length - diff.trailing)
  removed : diff.removed.start = diff.leading ∧ diff.removed.stop + diff.trailing = previous.length
  inserted : diff.inserted.start = diff.leading ∧ diff.inserted.stop + diff.trailing = current.length
  longestLeading : ∀ shared, shared <+: previous → shared <+: current →
    shared.length ≤ diff.leading
  longestTrailing : ∀ shared, shared <:+ previous → shared <:+ current →
    diff.leading + shared.length ≤ min previous.length current.length →
      shared.length ≤ diff.trailing

/-- The previous list with the inserted piece of the current one in the place of the removed piece. -/
def applied (diff : TokenDiff) (previous current : List Fingerprint) : List Fingerprint :=
  previous.take diff.removed.start ++
    (current.drop diff.inserted.start).take (diff.inserted.stop - diff.inserted.start) ++
      previous.drop diff.removed.stop

def swapped (diff : TokenDiff) : TokenDiff :=
  { diff with removed := diff.inserted, inserted := diff.removed }

variable {previous current : List Fingerprint} {diff other : TokenDiff}

namespace IsMaximal

theorem swapped (maximal : diff.IsMaximal previous current) :
    diff.swapped.IsMaximal current previous where
  apart := Nat.min_comm previous.length current.length ▸ maximal.apart
  leading := maximal.leading.symm
  trailing := maximal.trailing.symm
  removed := maximal.inserted
  inserted := maximal.removed
  longestLeading := fun shared here there => maximal.longestLeading shared there here
  longestTrailing := fun shared here there apart =>
    maximal.longestTrailing shared there here (Nat.min_comm _ _ ▸ apart)

private theorem leading_le (maximal : diff.IsMaximal previous current)
    (others : other.IsMaximal previous current) : diff.leading ≤ other.leading := by
  have bounded := maximal.apart
  have longest := others.longestLeading (previous.take diff.leading) (List.take_prefix _ _)
    (maximal.leading ▸ List.take_prefix _ _)
  rw [List.length_take] at longest
  omega

private theorem trailing_le (maximal : diff.IsMaximal previous current)
    (others : other.IsMaximal previous current) (same : diff.leading = other.leading) :
    diff.trailing ≤ other.trailing := by
  have bounded := maximal.apart
  have length : (previous.drop (previous.length - diff.trailing)).length = diff.trailing := by
    rw [List.length_drop]
    omega
  have longest := others.longestTrailing _ (List.drop_suffix _ previous)
    (maximal.trailing ▸ List.drop_suffix _ current)
  rw [length, ← same] at longest
  exact longest bounded

theorem unique (maximal : diff.IsMaximal previous current)
    (others : other.IsMaximal previous current) : diff = other := by
  have leading := Nat.le_antisymm (maximal.leading_le others) (others.leading_le maximal)
  have trailing := Nat.le_antisymm (maximal.trailing_le others leading)
    (others.trailing_le maximal leading.symm)
  obtain ⟨start, stop⟩ := maximal.removed
  obtain ⟨first, last⟩ := maximal.inserted
  obtain ⟨otherStart, otherStop⟩ := others.removed
  obtain ⟨otherFrom, otherUpto⟩ := others.inserted
  rcases diff with ⟨_, _, ⟨_, _⟩, ⟨_, _⟩⟩
  rcases other with ⟨_, _, ⟨_, _⟩, ⟨_, _⟩⟩
  simp only [mk.injEq, TokenSpan.mk.injEq] at *
  omega

theorem applied_eq (maximal : diff.IsMaximal previous current) :
    diff.applied previous current = current := by
  have bounded := maximal.apart
  obtain ⟨start, stop⟩ := maximal.removed
  obtain ⟨first, last⟩ := maximal.inserted
  have before : previous.take diff.removed.start = current.take diff.inserted.start := by
    rw [start, first, maximal.leading]
  have behind : previous.drop diff.removed.stop = current.drop diff.inserted.stop := by
    rw [Nat.eq_sub_of_add_eq stop, Nat.eq_sub_of_add_eq last, maximal.trailing]
  have ordered : diff.inserted.start ≤ diff.inserted.stop := by omega
  rw [applied, before, behind, ← List.take_add, Nat.add_sub_cancel' ordered, List.take_append_drop]

theorem isIdentical_iff (maximal : diff.IsMaximal previous current) :
    diff.isIdentical = true ↔ previous = current := by
  have bounded := maximal.apart
  obtain ⟨start, stop⟩ := maximal.removed
  obtain ⟨first, last⟩ := maximal.inserted
  simp only [isIdentical, TokenSpan.isEmpty, Bool.and_eq_true, beq_iff_eq]
  constructor
  · rintro ⟨nothing, nowhere⟩
    have applied := maximal.applied_eq
    rwa [TokenDiff.applied, ← nothing, ← nowhere, Nat.sub_self, List.take_zero, List.append_nil,
      List.take_append_drop] at applied
  · rintro rfl
    have whole := maximal.longestLeading previous (List.prefix_refl _) (List.prefix_refl _)
    omega

end IsMaximal

theorem maximal_between (previous current : List Fingerprint) :
    (between previous current).IsMaximal previous current := by
  obtain ⟨inPrevious, inCurrent⟩ := commonPrefix_le previous current
  have agree : commonSuffix previous current (commonPrefix previous current) ≤
      commonPrefix previous.reverse current.reverse := Nat.min_le_left _ _
  have room : commonSuffix previous current (commonPrefix previous current) ≤
      min previous.length current.length - commonPrefix previous current := Nat.min_le_right _ _
  refine ⟨?_, take_commonPrefix previous current, ?_, ⟨rfl, ?_⟩, ⟨rfl, ?_⟩, ?_, ?_⟩
  · dsimp only [between]
    omega
  · have reversed := take_of_le_commonPrefix agree
    rwa [List.take_reverse, List.take_reverse, List.reverse_inj] at reversed
  · dsimp only [between]
    omega
  · dsimp only [between]
    omega
  · exact fun shared here there => length_le_commonPrefix here there
  · intro shared here there apart
    have longest := length_le_commonPrefix (List.reverse_prefix.mpr here)
      (List.reverse_prefix.mpr there)
    rw [List.length_reverse] at longest
    exact Nat.le_min.mpr ⟨longest, by dsimp only [between] at apart; omega⟩

/-- The diff of two lists is the one with the most in common at both ends, these apart. Its edit makes the
current list of the previous one and changes nothing exactly if they are the same, and the diff of the
lists the other way round is the edit back. -/
theorem between_exact (previous current : List Fingerprint) :
    (between previous current).IsMaximal previous current ∧
      (between previous current).applied previous current = current ∧
      ((between previous current).isIdentical = true ↔ previous = current) ∧
      between current previous = (between previous current).swapped :=
  have maximal := maximal_between previous current
  ⟨maximal, maximal.applied_eq, maximal.isIdentical_iff,
    (maximal_between current previous).unique maximal.swapped⟩

/-- The word that is added to others of its kind is the last one, and none is shared twice. -/
example (word : Fingerprint) :
    between [word, word] [word, word, word] = ⟨2, 0, ⟨2, 2⟩, ⟨2, 3⟩⟩ := by
  simp [between, commonPrefix, commonSuffix]

end TokenDiff

end Readings
