import Readings.Time.Duration

/-! Clocks that are moved by hand. The time of a clock stays at the highest time it can tell once it
has reached it. -/

namespace Readings

structure Clock where
  now : Duration
deriving Repr, DecidableEq, Inhabited

namespace Clock

def last : Duration := UInt64.size - 1

def start : Clock := ⟨0⟩

def advance (clock : Clock) (step : Duration) : Clock := ⟨min (clock.now + step) last⟩

def set (time : Duration) : Clock := ⟨min time last⟩

end Clock

end Readings
