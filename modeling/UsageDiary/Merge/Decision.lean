import UsageDiary.Day
import UsageDiary.Report
import UsageDiary.Settings

/-!
# What an event does to a day

An event is compared with the activity of its device that starts last in
the day. It creates an activity where there is none, where it starts before
that one, or where it starts later than the combine interval after its end.
Otherwise it moves the end of that activity, if that grows by the skip
window or more, and is absorbed if not.

A new activity lasts the minimum duration: it is stretched forward, and
where that would cross the end of the day, moved back as far as the day's
start. Main statement: an event inside the day is kept as it is
(`UsageEvent.fit_of_le`).
-/

namespace UsageDiary

/-- What an event does to a day. -/
inductive Decision where
  | create
  | extend (activity : Id)
  | absorb (activity : Activity)

namespace UsageEvent

/-- An event cut at the end of a day. -/
def fit (e : UsageEvent) (d : Day) : UsageEvent :=
  if e.ends ≤ d.ends then e else { e with ends := d.ends }

theorem fit_of_le {e : UsageEvent} {d : Day} (h : e.ends ≤ d.ends) : e.fit d = e := by
  simp [fit, h]

/-- The report of an event that is cut. -/
def cut (e : UsageEvent) (d : Day) : LogEvent :=
  ⟨.warn, "Event runs past a day kept from another time zone; cutting at its end",
    [("date", .shown d.date), ("time_zone", .text d.zone.name), ("end_time", .text e.ends.message)]⟩

end UsageEvent

namespace Settings

/-- What an event does to a day; none where a window is no length of time. -/
def decide? (s : Settings) (d : Day) (e : UsageEvent) : Option Decision :=
  match d.last? e.device with
  | none => some .create
  | some last =>
    if e.starts < last.starts then some .create
    else do
      let combine ← s.combineInterval?
      if combine < e.starts.since last.ends then return .create
      else if last.ends < e.ends then
        let skip ← s.skipWindow?
        if skip ≤ e.ends.since last.ends then return .extend last.id
        else return .absorb last
      else return .absorb last

/-- The bounds of a new activity for an event in a day; none where they
leave the calendar. -/
def stretch? (s : Settings) (d : Day) (e : UsageEvent) : Option (Instant × Instant) := do
  let minimum ← s.minimumDuration?
  if e.ends.since e.starts < minimum then
    let ends ← e.starts.shift? minimum
    if d.ends < ends then
      let starts ← d.ends.shift? (-minimum)
      return (max starts d.starts, d.ends)
    else return (e.starts, ends)
  else return (e.starts, e.ends)

end Settings
end UsageDiary
