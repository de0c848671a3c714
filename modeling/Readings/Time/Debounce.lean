import Readings.Time.Duration

/-! When to parse while a request is being typed. A tracker keeps the times of keystrokes and parses,
and a policy decides on the times that have passed since. -/

namespace Readings

inductive ParseReason where
  /-- Nothing has been parsed yet. -/
  | firstKeystroke
  /-- The edit has waited as long as one may. -/
  | maxDelay
  /-- The author has stopped typing. -/
  | typingPause
  /-- The last parse is long enough ago. -/
  | minInterval
deriving Repr, DecidableEq, Inhabited

def ParseReason.render : ParseReason → String
  | .firstKeystroke => "first_keystroke"
  | .maxDelay => "max_delay"
  | .typingPause => "typing_pause"
  | .minInterval => "min_interval"

inductive DebounceDecision where
  | parseNow (reason : ParseReason)
  | wait (time : Duration)
deriving Repr, DecidableEq

def DebounceDecision.shouldParse : DebounceDecision → Bool
  | .parseNow _ => true
  | .wait _ => false

structure DebounceSnapshot where
  /-- Before the first parse there is none. -/
  sinceLastParse : Option Duration
  sinceLastKeystroke : Duration
  /-- Since the first keystroke that no parse has covered. -/
  pendingFor : Duration
deriving Repr, DecidableEq, Inhabited

structure DebouncePolicy where
  minInterval : Duration := Duration.ofMilliseconds 150
  maxDelay : Duration := Duration.ofMilliseconds 500
  pauseThreshold : Duration := Duration.ofMilliseconds 300
deriving Repr, DecidableEq, Inhabited

/-- Decides whether to parse; if not, the wait ends as soon as one of the reasons applies. -/
def DebouncePolicy.decide (policy : DebouncePolicy) (snapshot : DebounceSnapshot) :
    DebounceDecision :=
  match snapshot.sinceLastParse with
  | none => .parseNow .firstKeystroke
  | some sinceLastParse =>
    if policy.maxDelay ≤ snapshot.pendingFor then .parseNow .maxDelay
    else if policy.pauseThreshold ≤ snapshot.sinceLastKeystroke then .parseNow .typingPause
    else if policy.minInterval ≤ sinceLastParse then .parseNow .minInterval
    else
      .wait (min (min (policy.maxDelay - snapshot.pendingFor)
        (policy.pauseThreshold - snapshot.sinceLastKeystroke))
        (policy.minInterval - sinceLastParse))

structure DebounceTracker where
  lastParse : Option Duration := none
  lastKeystroke : Option Duration := none
  /-- The first keystroke that no parse has covered. -/
  pendingSince : Option Duration := none
deriving Repr, DecidableEq, Inhabited

namespace DebounceTracker

def recordKeystroke (tracker : DebounceTracker) (now : Duration) : DebounceTracker :=
  { tracker with
    lastKeystroke := some now
    pendingSince := some (tracker.pendingSince.getD now) }

def recordParse (tracker : DebounceTracker) (now : Duration) : DebounceTracker :=
  { tracker with lastParse := some now, pendingSince := none }

def hasPending (tracker : DebounceTracker) : Bool := tracker.pendingSince.isSome

/-- The times that have passed; a clock that has gone back counts as one that stands still. -/
def snapshot (tracker : DebounceTracker) (now : Duration) : DebounceSnapshot :=
  { sinceLastParse := tracker.lastParse.map (now - ·)
    sinceLastKeystroke := (tracker.lastKeystroke.map (now - ·)).getD 0
    pendingFor := (tracker.pendingSince.map (now - ·)).getD 0 }

end DebounceTracker

end Readings
