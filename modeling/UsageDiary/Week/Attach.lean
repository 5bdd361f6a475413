import UsageDiary.Store.Calls

/-!
# Attaching days to weeks

A day belongs to the week that starts on the Sunday on or before its date.
The week is created with the first of its days and saved when that changes
it.
-/

namespace UsageDiary.Work

/-- The report of a saved week. -/
def weekUpdated (weekStart : Date) (created : Bool) : LogEvent :=
  ⟨.debug, "Week activity updated", [("week_start", .shown weekStart), ("created", .bool created)]⟩

/-- Attaches a day to its week and saves the week if that changed it. -/
def attachDay (day : Day) : Work Week := do
  let weekStart := day.date.weekStart
  let existing ← findWeek day.user day.goal weekStart
  let week ← match existing with
    | some week => pure week
    | none => pure (Week.create (← freshId) day.user day.goal weekStart day.zone)
  let (attached, week) ← respecting (week.attach day)
  if existing.isNone || attached then
    saveWeek week
    report (weekUpdated weekStart existing.isNone)
  return week

end UsageDiary.Work
