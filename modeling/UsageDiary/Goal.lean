import UsageDiary.Calendar.Instant
import UsageDiary.Id

/-!
# Goals

A goal limits the use of one category of activity: a no-go goal allows
none, a budget goal so many minutes a day. It counts from an instant on.
-/

namespace UsageDiary

/-- What a goal allows. -/
inductive GoalKind where
  | noGo
  | budget (maxMinutes : Nat)
deriving DecidableEq

/-- A goal for one category of activity. -/
structure Goal where
  id : Id
  category : Id
  kind : GoalKind
  activeSince : Instant
deriving DecidableEq

namespace Goal

/-- A goal that allows no activity. -/
def isNoGo (g : Goal) : Bool := g.kind == .noGo

/-- The goal counts what happens at an instant. -/
def wasActiveAt (g : Goal) (t : Instant) : Bool := g.activeSince ≤ t

end Goal
end UsageDiary
