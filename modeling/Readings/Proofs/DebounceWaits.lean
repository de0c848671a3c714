import Readings.Time.Debounce
import Mathlib.Data.List.DropRight
import Mathlib.Data.Option.Basic

/-! Waits of the debounce policy. A tracker holds the last parse, the last keystroke and the first
keystroke behind the last parse, so while a keystroke is pending all that a snapshot tells grows with
the clock. A wait is what is left of the limit that is reached first; it shrinks with the clock too, and
when nothing is left of it a reason applies. -/

namespace Readings

/-- What a tracker is told, with the time of it. -/
inductive EditEvent where
  | keystroke (now : Duration)
  | parse (now : Duration)

namespace EditEvent

def time : EditEvent → Duration
  | .keystroke now => now
  | .parse now => now

def isKeystroke : EditEvent → Bool
  | .keystroke _ => true
  | .parse _ => false

/-- The keystrokes that no parse has covered: those behind the last parse. -/
def unparsed (events : List EditEvent) : List EditEvent := events.rtakeWhile isKeystroke

theorem mem_keystrokes {events : List EditEvent} {event : EditEvent} (member : event ∈ unparsed events) :
    event ∈ events.filter (·.isKeystroke) :=
  List.mem_filter.mpr ⟨(List.rtakeWhile_suffix _ _).subset member, List.mem_rtakeWhile_imp member⟩

end EditEvent

/-- The snapshot that a clock shows which has moved on while nothing happened. -/
def DebounceSnapshot.after (snapshot : DebounceSnapshot) (elapsed : Duration) : DebounceSnapshot where
  sinceLastParse := snapshot.sinceLastParse.map (· + elapsed)
  sinceLastKeystroke := snapshot.sinceLastKeystroke + elapsed
  pendingFor := snapshot.pendingFor + elapsed

namespace DebounceTracker

def record (tracker : DebounceTracker) : EditEvent → DebounceTracker
  | .keystroke now => tracker.recordKeystroke now
  | .parse now => tracker.recordParse now

def recordAll (events : List EditEvent) : DebounceTracker := events.foldl record {}

/-- The tracker holds what it has to know of the events. -/
structure Tells (tracker : DebounceTracker) (events : List EditEvent) : Prop where
  lastParse : tracker.lastParse = (events.filter (!·.isKeystroke)).getLast?.map EditEvent.time
  lastKeystroke : tracker.lastKeystroke = (events.filter (·.isKeystroke)).getLast?.map EditEvent.time
  pendingSince : tracker.pendingSince = (EditEvent.unparsed events).head?.map EditEvent.time

variable {tracker : DebounceTracker} {events : List EditEvent}

theorem Tells.record (told : tracker.Tells events) (event : EditEvent) :
    (tracker.record event).Tells (events ++ [event]) := by
  cases event with
  | parse now =>
    have behind : EditEvent.unparsed (events ++ [.parse now]) = [] :=
      List.rtakeWhile_concat_neg _ _ _ Bool.false_ne_true
    refine ⟨?_, ?_, ?_⟩
    · simp [DebounceTracker.record, recordParse, EditEvent.isKeystroke, EditEvent.time]
    · simpa [DebounceTracker.record, recordParse, EditEvent.isKeystroke] using told.lastKeystroke
    · rw [behind]
      rfl
  | keystroke now =>
    have behind : EditEvent.unparsed (events ++ [.keystroke now]) =
        EditEvent.unparsed events ++ [.keystroke now] :=
      List.rtakeWhile_concat_pos _ _ _ rfl
    refine ⟨?_, ?_, ?_⟩
    · simpa [DebounceTracker.record, recordKeystroke, EditEvent.isKeystroke] using told.lastParse
    · simp [DebounceTracker.record, recordKeystroke, EditEvent.isKeystroke, EditEvent.time]
    · rw [behind, List.head?_append]
      simp only [DebounceTracker.record, recordKeystroke, told.pendingSince]
      cases (EditEvent.unparsed events).head? <;> rfl

theorem tells_recordAll (events : List EditEvent) : (recordAll events).Tells events := by
  induction events using List.reverseRecOn with
  | nil => exact ⟨rfl, rfl, rfl⟩
  | append_singleton events event ih =>
    rw [recordAll, List.foldl_concat]
    exact ih.record event

/-- The tracker holds no time at which nothing happened. -/
structure IsReached (tracker : DebounceTracker) (now : Duration) : Prop where
  lastParse : ∀ time ∈ tracker.lastParse, time ≤ now
  lastKeystroke : ∀ time ∈ tracker.lastKeystroke, time ≤ now
  pendingSince : ∀ time ∈ tracker.pendingSince, time ≤ now

variable {now : Duration}

theorem Tells.isReached (told : tracker.Tells events) (reached : ∀ event ∈ events, event.time ≤ now) :
    tracker.IsReached now where
  lastParse := by
    rw [told.lastParse, Option.forall_mem_map]
    exact fun event last => reached event (List.mem_filter.mp (List.mem_of_getLast? last)).1
  lastKeystroke := by
    rw [told.lastKeystroke, Option.forall_mem_map]
    exact fun event last => reached event (List.mem_filter.mp (List.mem_of_getLast? last)).1
  pendingSince := by
    rw [told.pendingSince, Option.forall_mem_map]
    intro event first
    have typed := EditEvent.mem_keystrokes (List.mem_of_head? first)
    exact reached event (List.mem_filter.mp typed).1

theorem Tells.exists_first (told : tracker.Tells events) (pending : tracker.hasPending = true) :
    ∃ first, (EditEvent.unparsed events).head? = some first ∧
      tracker.pendingSince = some first.time := by
  obtain ⟨since, held⟩ := Option.isSome_iff_exists.mp pending
  obtain ⟨first, unparsed, rfl⟩ := Option.map_eq_some_iff.mp (told.pendingSince.symm.trans held)
  exact ⟨first, unparsed, held⟩

theorem Tells.exists_lastKeystroke (told : tracker.Tells events) (pending : tracker.hasPending = true) :
    ∃ time, tracker.lastKeystroke = some time := by
  obtain ⟨first, unparsed, -⟩ := told.exists_first pending
  have typed := EditEvent.mem_keystrokes (List.mem_of_head? unparsed)
  rw [told.lastKeystroke, List.getLast?_eq_some_getLast (List.ne_nil_of_mem typed)]
  exact ⟨_, rfl⟩

/-- While a keystroke is pending, all that a snapshot tells grows with the clock. -/
theorem Tells.snapshot_add (told : tracker.Tells events) (pending : tracker.hasPending = true)
    (reached : ∀ event ∈ events, event.time ≤ now) (elapsed : Duration) :
    tracker.snapshot (now + elapsed) = (tracker.snapshot now).after elapsed := by
  have held := told.isReached reached
  obtain ⟨since, -, waiting⟩ := told.exists_first pending
  obtain ⟨last, typed⟩ := told.exists_lastKeystroke pending
  have first := held.pendingSince since.time waiting
  have latest := held.lastKeystroke last typed
  simp only [snapshot, DebounceSnapshot.after, waiting, typed, Option.map_some, Option.getD_some,
    Option.map_map, DebounceSnapshot.mk.injEq]
  refine ⟨?_, Nat.sub_add_comm latest, Nat.sub_add_comm first⟩
  apply Option.map_congr
  intro parsed known
  exact Nat.sub_add_comm (held.lastParse parsed known)

end DebounceTracker

namespace DebouncePolicy

structure Leaves (limit passed rest : Nat) : Prop where
  positive : 0 < rest
  total : passed + rest = limit

/-- No reason to parse applies yet, and the first one does once the time has passed. -/
inductive Awaits (policy : DebouncePolicy) (snapshot : DebounceSnapshot) : Nat → Prop where
  | first {sinceLastParse delay pause interval : Nat}
      (parsed : snapshot.sinceLastParse = some sinceLastParse)
      (delayed : Leaves policy.maxDelay snapshot.pendingFor delay)
      (paused : Leaves policy.pauseThreshold snapshot.sinceLastKeystroke pause)
      (spaced : Leaves policy.minInterval sinceLastParse interval) :
      policy.Awaits snapshot (min (min delay pause) interval)

namespace Leaves

variable {limit passed rest : Nat}

theorem of_not_le (early : ¬ limit ≤ passed) : Leaves limit passed (limit - passed) :=
  ⟨by omega, by omega⟩

theorem not_le (leaves : Leaves limit passed rest) : ¬ limit ≤ passed := by
  have positive := leaves.positive
  have total := leaves.total
  omega

theorem sub_eq (leaves : Leaves limit passed rest) : limit - passed = rest := by
  have total := leaves.total
  omega

theorem add_iff {elapsed : Nat} :
    Leaves limit (passed + elapsed) rest ↔ 0 < rest ∧ Leaves limit passed (elapsed + rest) := by
  constructor
  · intro leaves
    exact ⟨leaves.positive, Nat.add_pos_right _ leaves.positive, Nat.add_assoc .. ▸ leaves.total⟩
  · intro leaves
    exact ⟨leaves.1, (Nat.add_assoc ..).trans leaves.2.total⟩

end Leaves

variable {policy : DebouncePolicy} {snapshot : DebounceSnapshot} {time : Duration}

/-- A decision to wait tells exactly what is left; nothing is taken from less than itself. -/
theorem decide_eq_wait_iff : policy.decide snapshot = .wait time ↔ policy.Awaits snapshot time := by
  constructor
  · intro waiting
    unfold decide at waiting
    split at waiting
    next => cases waiting
    next sinceLastParse parsed =>
      split at waiting
      next => cases waiting
      next early =>
        split at waiting
        next => cases waiting
        next typing =>
          split at waiting
          next => cases waiting
          next recent =>
            cases waiting
            exact .first parsed (.of_not_le early) (.of_not_le typing) (.of_not_le recent)
  · intro awaiting
    cases awaiting with
    | first parsed delayed paused spaced =>
      simp only [decide, parsed, if_neg delayed.not_le, if_neg paused.not_le, if_neg spaced.not_le,
        delayed.sub_eq, paused.sub_eq, spaced.sub_eq]

theorem exists_parseNow (none : ∀ time, ¬ policy.Awaits snapshot time) :
    ∃ reason, policy.decide snapshot = .parseNow reason := by
  cases decided : policy.decide snapshot with
  | parseNow reason => exact ⟨reason, rfl⟩
  | wait time => exact absurd (decide_eq_wait_iff.mp decided) (none time)

theorem Awaits.positive (awaiting : policy.Awaits snapshot time) : 0 < time := by
  cases awaiting with
  | first _ delayed paused spaced =>
    exact Nat.lt_min.mpr ⟨Nat.lt_min.mpr ⟨delayed.positive, paused.positive⟩, spaced.positive⟩

theorem awaits_after_iff {elapsed rest : Nat} :
    policy.Awaits (snapshot.after elapsed) rest ↔
      0 < rest ∧ policy.Awaits snapshot (elapsed + rest) := by
  constructor
  · intro awaiting
    refine ⟨awaiting.positive, ?_⟩
    cases awaiting with
    | first parsed delayed paused spaced =>
      obtain ⟨since, known, rfl⟩ := Option.map_eq_some_iff.mp parsed
      rw [← Nat.add_min_add_left, ← Nat.add_min_add_left]
      exact .first known (Leaves.add_iff.mp delayed).2 (Leaves.add_iff.mp paused).2
        (Leaves.add_iff.mp spaced).2
  · intro later
    obtain ⟨positive, awaiting⟩ := later
    generalize total : elapsed + rest = time at awaiting
    cases awaiting with
    | @first since delay pause interval parsed delayed paused spaced =>
      obtain ⟨delay, rfl⟩ := Nat.exists_eq_add_of_le (show elapsed ≤ delay by omega)
      obtain ⟨pause, rfl⟩ := Nat.exists_eq_add_of_le (show elapsed ≤ pause by omega)
      obtain ⟨interval, rfl⟩ := Nat.exists_eq_add_of_le (show elapsed ≤ interval by omega)
      rw [Nat.add_min_add_left, Nat.add_min_add_left, Nat.add_left_cancel_iff] at total
      subst total
      simp only [Nat.lt_min] at positive
      obtain ⟨⟨first, second⟩, third⟩ := positive
      have known : (snapshot.after elapsed).sinceLastParse = some (since + elapsed) := by
        rw [DebounceSnapshot.after, parsed, Option.map_some]
      exact .first known (Leaves.add_iff.mpr ⟨first, delayed⟩) (Leaves.add_iff.mpr ⟨second, paused⟩)
        (Leaves.add_iff.mpr ⟨third, spaced⟩)

/-- A decision to wait holds, with less and less to wait, until its time has passed; then it is time to
parse. -/
theorem decide_after (waiting : policy.decide snapshot = .wait time) :
    (∀ elapsed < time, policy.decide (snapshot.after elapsed) = .wait (time - elapsed)) ∧
      ∀ elapsed ≥ time, ∃ reason, policy.decide (snapshot.after elapsed) = .parseNow reason := by
  constructor
  · intro elapsed early
    have rest : 0 < time - elapsed := Nat.sub_pos_of_lt early
    apply decide_eq_wait_iff.mpr
    apply awaits_after_iff.mpr
    rw [Nat.add_sub_of_le (Nat.le_of_lt early)]
    exact ⟨rest, decide_eq_wait_iff.mp waiting⟩
  · intro elapsed late
    apply exists_parseNow
    intro rest awaiting
    obtain ⟨positive, longer⟩ := awaits_after_iff.mp awaiting
    have same := waiting.symm.trans (decide_eq_wait_iff.mpr longer)
    cases same
    exact absurd late (Nat.not_le.mpr (Nat.lt_add_of_pos_right positive))

theorem exists_parseNow_of_maxDelay (overdue : policy.maxDelay ≤ snapshot.pendingFor) :
    ∃ reason, policy.decide snapshot = .parseNow reason := by
  apply exists_parseNow
  intro time awaiting
  cases awaiting with
  | first _ delayed _ _ => exact delayed.not_le overdue

end DebouncePolicy

/-- While a keystroke is pending and the clock has reached all events, a wait is exact: it is positive, it
shrinks with the clock, and as soon as it is over it is time to parse. Every wait is what is left of the
limit reached first, so nothing is subtracted from less than itself; and no wait goes on once the first
keystroke that no parse has covered is as old as an edit may get. -/
theorem debounce_exact (policy : DebouncePolicy) (events : List EditEvent) {now : Duration}
    (pending : (DebounceTracker.recordAll events).hasPending = true)
    (reached : ∀ event ∈ events, event.time ≤ now) :
    let tracker := DebounceTracker.recordAll events
    (∀ time, policy.decide (tracker.snapshot now) = .wait time →
      0 < time ∧
        (∀ elapsed < time,
          policy.decide (tracker.snapshot (now + elapsed)) = .wait (time - elapsed)) ∧
        ∀ elapsed ≥ time, ∃ reason,
          policy.decide (tracker.snapshot (now + elapsed)) = .parseNow reason) ∧
      (∀ snapshot time, policy.decide snapshot = .wait time ↔ policy.Awaits snapshot time) ∧
      ∃ first, (EditEvent.unparsed events).head? = some first ∧
        ∀ later ≥ first.time + policy.maxDelay, ∃ reason,
          policy.decide (tracker.snapshot later) = .parseNow reason := by
  have told := DebounceTracker.tells_recordAll events
  refine ⟨?_, fun snapshot time => DebouncePolicy.decide_eq_wait_iff, ?_⟩
  · intro time waiting
    obtain ⟨shrinks, ends⟩ := DebouncePolicy.decide_after waiting
    simp only [told.snapshot_add pending reached]
    exact ⟨(DebouncePolicy.decide_eq_wait_iff.mp waiting).positive, shrinks, ends⟩
  · obtain ⟨first, unparsed, held⟩ := told.exists_first pending
    refine ⟨first, unparsed, ?_⟩
    intro later overdue
    apply DebouncePolicy.exists_parseNow_of_maxDelay
    simp only [DebounceTracker.snapshot, held, Option.map_some, Option.getD_some]
    exact Nat.le_sub_of_add_le' overdue

def typedAgain : List EditEvent :=
  [.keystroke (Duration.ofMilliseconds 0), .parse (Duration.ofMilliseconds 100),
    .keystroke (Duration.ofMilliseconds 150), .keystroke (Duration.ofMilliseconds 180)]

theorem typedAgain_waits :
    let tracker := DebounceTracker.recordAll typedAgain
    let policy : DebouncePolicy := {}
    let now := Duration.ofMilliseconds 200
    tracker.hasPending = true ∧ (∀ event ∈ typedAgain, event.time ≤ now) ∧
      policy.decide (tracker.snapshot now) = .wait (Duration.ofMilliseconds 50) ∧
      policy.decide (tracker.snapshot (now + Duration.ofMilliseconds 20)) =
        .wait (Duration.ofMilliseconds 30) ∧
      ∃ reason, policy.decide (tracker.snapshot (now + Duration.ofMilliseconds 60)) =
        .parseNow reason := by
  intro tracker policy now
  have pending : tracker.hasPending = true := by decide
  have reached : ∀ event ∈ typedAgain, event.time ≤ now := by decide
  have waiting : policy.decide (tracker.snapshot now) = .wait (Duration.ofMilliseconds 50) := by decide
  obtain ⟨-, shrinks, ends⟩ := (debounce_exact policy typedAgain pending reached).1 _ waiting
  exact ⟨pending, reached, waiting, shrinks _ (by decide), ends _ (by decide)⟩

end Readings
