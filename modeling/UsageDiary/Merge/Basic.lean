import UsageDiary.Merge.Decision
import UsageDiary.Merge.Lookup
import UsageDiary.Week.Attach

/-!
# Merging events into days

An event is merged into the day that takes it: the day is found or opened,
changed, saved, remembered if it is the last one, and attached to its week.
A day whose week could not be saved stays marked, so that the next merge
attaches it.
-/

namespace UsageDiary

/-- What a merge did. -/
inductive Outcome where
  | created (activity : Activity) (dayCreated : Bool)
  | extended (activity : Activity)
  | absorbed (activity : Activity)
deriving DecidableEq

namespace Outcome

/-- The activity that the event is part of. -/
def activity : Outcome → Activity
  | created a _ | extended a | absorbed a => a

/-- The day was changed. -/
def isPersisted : Outcome → Bool
  | absorbed _ => false
  | _ => true

/-- The word for an outcome. -/
def word : Outcome → String
  | created .. => "created"
  | extended _ => "extended"
  | absorbed _ => "absorbed"

end Outcome

/-- The outcome of a merge and the day after it. -/
structure Merged where
  outcome : Outcome
  day : Day
deriving DecidableEq

namespace Work

/-- The slot of a user and goal, with the last day looked up. -/
def loadedSlot (user goal : Id) : Work Slot := do
  let slot ← openSlot user goal
  if slot.loaded then return slot
  else
    let slot := slot.load (← findLast user goal)
    setSlot user goal slot
    return slot

/-- The report of a lookup. -/
def lookedUp (user goal : Id) (p : Placement) : LogEvent :=
  ⟨.trace, "Day activity cache lookup", [("user_anonymized_id", .shown user),
    ("goal_id", .shown goal), ("state", .text p.lookup.word), ("event_date", .shown p.date)]⟩

/-- The day of a placement, and whether it was opened for it. -/
def takeDay (user goal : Id) (p : Placement) : Work (Day × Bool) :=
  match p.lookup with
  | .current day | .preceding (some day) => return (day, false)
  | .empty | .following | .preceding none => do
    let day ← ofZone (Day.create (← freshId) user goal p.zone p.date)
    return (day, true)

/-- Applies an event to a day: the outcome, and the day after it. -/
def apply (s : Settings) (day : Day) (dayCreated : Bool) (e : UsageEvent) : Work Merged := do
  match ← inRange (s.decide? day e) with
  | .create =>
    let (starts, ends) ← inRange (s.stretch? day e)
    let activity : Activity := ⟨← freshId, starts, ends, e.device, e.app⟩
    let day ← respecting (day.add activity)
    return ⟨.created activity dayCreated, day⟩
  | .extend id =>
    let (day, activity) ← respecting (day.extend id e.ends)
    return ⟨.extended activity, day⟩
  | .absorb activity => return ⟨.absorbed activity, day⟩

/-- The report of a merge. -/
def mergedEvent (user goal : Id) (outcome : Outcome) : LogEvent :=
  ⟨.debug, "Activity merged", [("user_anonymized_id", .shown user), ("goal_id", .shown goal),
    ("outcome", .text outcome.word), ("start_time", .text outcome.activity.starts.message),
    ("end_time", .text outcome.activity.ends.message)]⟩

/-- Attaches a day to its week where that is still to be done, and takes the
mark off the slot of a cached day. -/
def attachPending (user goal : Id) (pending cached : Bool) (day : Day) : Work Unit := do
  if pending then
    let _ ← attachDay day
    if cached then
      setSlot user goal (← openSlot user goal).markAttached

/-- Merges an event of a user under a goal into the day that takes it. -/
def merge (s : Settings) (user : User) (goal : Id) (e : UsageEvent) : Work Merged := do
  let slot ← loadedSlot user.id goal
  let p ← place slot user goal e.starts
  report (lookedUp user.id goal p)
  let cached := match p.lookup with
    | .preceding _ => false
    | _ => true
  let pending := match p.lookup with
    | .current _ => slot.weekPending
    | _ => true
  let (day, dayCreated) ← takeDay user.id goal p
  if day.ends < e.ends then report (e.cut day)
  let merged ← apply s day dayCreated (e.fit day)
  if merged.outcome.isPersisted then saveDay merged.day
  if cached then setSlot user.id goal (slot.replace merged.day)
  attachPending user.id goal pending cached merged.day
  report (mergedEvent user.id goal merged.outcome)
  return merged

end Work
end UsageDiary
