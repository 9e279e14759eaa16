/-!
# Durations

Spans of time in whole nanoseconds.
-/

namespace Statechart

/-- A span of time. -/
structure Duration where
  nanos : Nat
  deriving DecidableEq, Inhabited

namespace Duration

def ofMicros (count : Nat) : Duration := ⟨count * 1000⟩

def ofMillis (count : Nat) : Duration := ⟨count * 1000000⟩

/-- The whole milliseconds of a span. -/
def millis (span : Duration) : Nat := span.nanos / 1000000

end Duration

end Statechart
