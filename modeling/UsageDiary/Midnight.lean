import UsageDiary.Report
import UsageDiary.World

/-!
# Splitting events at midnight

An event that runs past the end of the local day it starts in is cut there.
What lies in the day it ends in is kept as a second event; days between the
two get nothing. An event inside one day stays whole.
-/

namespace UsageDiary.UsageEvent

/-- The report of an event that is split. -/
def splitReport (e : UsageEvent) (gap : Bool) : LogEvent :=
  let fields := [("start_time", LogValue.text e.starts.message), ("end_time", .text e.ends.message)]
  if gap then ⟨.warn, "Event spans more than one day boundary; intermediate days are dropped", fields⟩
  else ⟨.debug, "Split event at day boundary", fields⟩

/-- The parts of an event in the local days it starts and ends in. -/
def split (zone : Zone) (e : UsageEvent) : Work (List UsageEvent) := do
  let startDate ← Work.inRange (zone.localDate? e.starts)
  let endOfStartDay ← Work.ofZone (zone.startOfNextDay startDate)
  if e.ends ≤ endOfStartDay then return [e]
  else
    let endDate ← Work.inRange (zone.localDate? e.ends)
    let startOfEndDay ← Work.ofZone (zone.startOfDay endDate)
    Work.report (e.splitReport (endOfStartDay < startOfEndDay))
    let head := { e with ends := endOfStartDay }
    if startOfEndDay < e.ends then return [head, { e with starts := startOfEndDay }]
    else return [head]

end UsageDiary.UsageEvent
