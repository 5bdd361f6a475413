import UsageDiary.Conflict
import UsageDiary.DeviceClock
import UsageDiary.Matching
import UsageDiary.Midnight

/-!
# Analysis of usage

A visit of the network or a device's report becomes usage events, each of
which is split at midnight and merged under every goal it counts for, and
conflicts are notified. An analysis stops at its first error; what was done
before stays done. What is done with a part of an event under a goal is a
parameter of the analyses (`Analyzer.processBy`); the program merges it and
notifies a conflict (`Analyzer.processOne`).
-/

namespace UsageDiary

/-- The outcome of one event under one goal. -/
structure GoalOutcome where
  goal : Id
  day : Id
  date : Date
  outcome : Outcome
  conflict : Bool
deriving DecidableEq

/-- What an analysis did, in order. -/
structure Analysis where
  outcomes : List GoalOutcome := []
deriving DecidableEq

namespace Analysis

/-- How many activities were created. -/
def created (a : Analysis) : Nat :=
  a.outcomes.countP fun o => match o.outcome with
    | .created .. => true
    | _ => false

/-- How many times an activity was extended. -/
def extended (a : Analysis) : Nat :=
  a.outcomes.countP fun o => match o.outcome with
    | .extended _ => true
    | _ => false

/-- How many events were absorbed. -/
def absorbed (a : Analysis) : Nat :=
  a.outcomes.countP fun o => match o.outcome with
    | .absorbed _ => true
    | _ => false

/-- How many conflicts were notified. -/
def conflicts (a : Analysis) : Nat := a.outcomes.countP (·.conflict)

/-- The later of a date and the date of an outcome. -/
def laterDate (best? : Option Date) (o : GoalOutcome) : Option Date :=
  match best? with
  | some best => some (if best < o.date then o.date else best)
  | none => some o.date

/-- The latest date that got activity. -/
def latest (a : Analysis) : Option Date := a.outcomes.foldl laterDate none

/-- The summary of an analysis. -/
def summary (a : Analysis) : String :=
  "created=" ++ toString a.created ++ " extended=" ++ toString a.extended ++ " absorbed=" ++
    toString a.absorbed

/-- The report of an analysis. -/
def reportOf (a : Analysis) (message : String) : LogEvent :=
  ⟨.info, message, [("summary", .text a.summary)]⟩

end Analysis

/-- Settings that passed the checks, with the tolerance as a length of time. -/
structure Analyzer where
  settings : Settings
  tolerance : Duration

namespace Analyzer

/-- An analyzer with some settings, if they pass the checks. -/
def create (s : Settings) : Except Stop Analyzer :=
  match s.validate with
  | .error e => .error (.failed (.settings e))
  | .ok () => match s.clockSkewTolerance? with
    | some tolerance => .ok ⟨s, tolerance⟩
    | none => .error .outOfRange

/-- Merges an event under a goal and notifies a conflict. -/
def processOne (a : Analyzer) (user : User) (part : UsageEvent) (goal : Goal) : Work GoalOutcome := do
  let merged ← Work.merge a.settings user goal.id part
  let conflict := a.settings.policy.isConflict goal merged.outcome
  if conflict then
    let _ ← Work.notify user goal merged.outcome.activity part.url
  return ⟨goal.id, merged.day.id, merged.day.date, merged.outcome, conflict⟩

/-- Puts a use before every use that does not start before it. -/
def insertUse (u : AppUse) : List AppUse → List AppUse
  | [] => [u]
  | v :: rest => if u.starts ≤ v.starts then u :: v :: rest else v :: insertUse u rest

/-- Uses in order of their starts, those of one start in the order given. -/
def inOrder (uses : List AppUse) : List AppUse := uses.foldr insertUse []

/-- Why a use that ends before it starts is refused. -/
def refusal (u : AppUse) : String :=
  "app activity for " ++ u.application ++ " ends (" ++ u.ends.message ++ ") before it starts (" ++
    u.starts.message ++ ")"

/-- A use without the offset of the device's clock. -/
def correctUse (offset : Duration) (u : AppUse) : Work AppUse := do
  let (starts, ends) ← Work.inRange (DeviceClock.correct? u.starts u.ends offset)
  return { u with starts := starts, ends := ends }

section By

variable (a : Analyzer) (one : UsageEvent → Goal → Work GoalOutcome)

/-- Splits an event and does something with each part and every goal. -/
def processBy (user : User) (goals : List Goal) (e : UsageEvent) : Work (List GoalOutcome) := do
  let parts ← e.split user.zone
  let outcomes ← parts.mapM fun part => goals.mapM fun goal => one part goal
  return outcomes.flatten

/-- The analysis of a visit of the network that does so. The visit counts at
its own time or now. -/
def networkBy (user : User) (visit : NetworkVisit) : Work Analysis := do
  if visit.categories.isEmpty then return {}
  else
    let observed := visit.time.getD (← get).now
    let goals ← Work.matchingGoals user visit.categories observed
    if goals.isEmpty then return {}
    else
      let url := truncateUrl visit.url a.settings.maxUrlLength
      let analysis : Analysis :=
        ⟨← processBy one user goals ⟨observed, observed, visit.device, none, some url⟩⟩
      Work.report (analysis.reportOf "Network activity analyzed")
      return analysis

/-- The analysis of one use of an application that does so. -/
def useBy (user : User) (device : Option Id) (u : AppUse) : Work (List GoalOutcome) := do
  let goals ← Work.matchingGoals user [u.application] u.ends
  if goals.isEmpty then return []
  else processBy one user goals ⟨u.starts, u.ends, device, some u.application, none⟩

/-- The analysis of a device's report that does so: of its uses without the
offset of the device's clock, in order of their starts. -/
def appBy (user : User) (r : AppReport) : Work Analysis := do
  match r.uses.find? fun u => u.ends < u.starts with
  | some u => Work.fail (.invalidInput (refusal u))
  | none =>
    let now := (← get).now
    (DeviceClock.reports a.tolerance now r.deviceTime).forM Work.report
    let uses ← r.uses.mapM (correctUse (DeviceClock.offset a.tolerance now r.deviceTime))
    let outcomes ← (inOrder uses).mapM (useBy one user r.device)
    let analysis : Analysis := ⟨outcomes.flatten⟩
    Work.report (analysis.reportOf "App activity analyzed")
    return analysis

end By

variable (a : Analyzer) (user : User)

/-- Splits an event and merges each part under every goal. -/
def process (goals : List Goal) (e : UsageEvent) : Work (List GoalOutcome) :=
  processBy (a.processOne user) user goals e

/-- Analyzes a visit of the network. -/
def network (visit : NetworkVisit) : Work Analysis := a.networkBy (a.processOne user) user visit

/-- Analyzes one use of an application. -/
def use (device : Option Id) (u : AppUse) : Work (List GoalOutcome) :=
  useBy (a.processOne user) user device u

/-- Analyzes a device's report. -/
def app (r : AppReport) : Work Analysis := a.appBy (a.processOne user) user r

end Analyzer
end UsageDiary
