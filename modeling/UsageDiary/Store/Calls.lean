import UsageDiary.World

/-!
# Store calls

The calls to the store of the world. A call that meets an outage fails and
leaves the store as it was. A query is noted with what it found once the
store answered, a save before the store is called.
-/

namespace UsageDiary.Work

/-- The result of a store call, its reports added to the log. -/
def answer {α : Type} (reply : Store.Reply α) : Work α := do
  reply.log.forM report
  match reply.result with
  | .ok a => return a
  | .error e => fail (.storage e)

/-- Runs a store call unless it meets an outage. -/
def guarded {α : Type} (call : CallKind) (run : Work α) : Work α := do
  match ← meetOutage call with
  | some o => fail (.storage o.storeError)
  | none => run

/-- The last day of a user and goal. -/
def findLast (user goal : Id) : Work (Option Day) := guarded .findLast do
  let found ← answer ((← get).store.findLast user goal)
  record (.findLast (found.map (·.date)))
  return found

/-- The day of a user, goal and date. -/
def findDay (user goal : Id) (date : Date) : Work (Option Day) := guarded .findDay do
  let found ← answer ((← get).store.findDay user goal date)
  record (.findDay date (found.map (·.activities.length)))
  return found

/-- The week of a user, goal and first date. -/
def findWeek (user goal : Id) (weekStart : Date) : Work (Option Week) := guarded .findWeek do
  let found ← answer ((← get).store.findWeek user goal weekStart)
  record (.findWeek weekStart (found.map (·.days.length)))
  return found

/-- Saves a day. -/
def saveDay (d : Day) : Work Unit := guarded .saveDay do
  record (.saveDay d.user d.goal d.date d.activities.length)
  let store ← answer ((← get).store.saveDay d)
  modify fun w => { w with store := store }

/-- Saves a week. -/
def saveWeek (w : Week) : Work Unit := guarded .saveWeek do
  record (.saveWeek w.user w.goal w.weekStart w.days.length)
  let store ← answer ((← get).store.saveWeek w)
  modify fun world => { world with store := store }

end UsageDiary.Work
