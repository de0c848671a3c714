import Readings.Fault
import Readings.Json.Decode

/-! Spans of time in nanoseconds, written in JSON as whole seconds and the nanoseconds left over. -/

namespace Readings

abbrev Duration := Nat

namespace Duration

def perMillisecond : Nat := 1000000

def perSecond : Nat := 1000 * perMillisecond

def ofMilliseconds (count : Nat) : Duration := count * perMillisecond

def ofSeconds (count : Nat) : Duration := count * perSecond

def toJson (duration : Duration) : Json :=
  .object [("secs", .nat (duration / perSecond)), ("nanos", .nat (duration % perSecond))]

/-- Reads seconds and nanoseconds, with nothing beside them. A second or more of nanoseconds is
carried, but not beyond the seconds that can be counted. -/
def ofJson? (value : Json) : Option Duration := do
  let [seconds, nanoseconds] ← value.closedRecord? ["secs", "nanos"] | none
  let seconds ← Json.required? Json.toCount? seconds
  let nanoseconds ← Json.required? Json.toWord? nanoseconds
  if seconds + nanoseconds / perSecond < countBound then
    return ofSeconds seconds + nanoseconds
  else none

end Duration

end Readings
