import UsageDiary.Calendar.Instant
import UsageDiary.Log

/-!
# Device clocks

How far a device's clock runs ahead, judged by the time it showed when it
reported. Offsets up to a tolerance are noise and count as none.
-/

namespace UsageDiary.DeviceClock

/-- How far a device's clock runs ahead of `now`, by the time it shows. -/
def offset (tolerance : Duration) (now deviceTime : Instant) : Duration :=
  let ahead := deviceTime.since now
  if (ahead.natAbs : Int) ≤ tolerance then 0 else ahead

/-- The report of an offset that is taken out. -/
def corrected (offset : Duration) : LogEvent :=
  ⟨.debug, "Corrected device clock drift", [("offset_ms", .int offset.toMillis)]⟩

/-- What working out an offset reports. -/
def reports (tolerance : Duration) (now deviceTime : Instant) : List LogEvent :=
  if ((deviceTime.since now).natAbs : Int) ≤ tolerance then []
  else [corrected (offset tolerance now deviceTime)]

/-- A stretch of time without the offset; none where it leaves the calendar. -/
def correct? (starts ends : Instant) (offset : Duration) : Option (Instant × Instant) := do
  return (← starts.shift? (-offset), ← ends.shift? (-offset))

end UsageDiary.DeviceClock
