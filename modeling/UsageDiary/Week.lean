import UsageDiary.Day

/-!
# Weeks

The days of one user under one goal in one week, which starts on a Sunday:
for each date the id of its day. Main statement: a date put into a week has
the id put there last (`Week.lookup_put`).
-/

namespace UsageDiary

/-- The days of a user under a goal in a week. -/
structure Week where
  id : Id
  user : Id
  goal : Id
  weekStart : Date
  zone : Zone
  /-- The id of the day of each date, by date. -/
  days : List (Date × Id)
deriving DecidableEq

namespace Week

/-- A week without days. -/
def create (id user goal : Id) (weekStart : Date) (zone : Zone) : Week :=
  ⟨id, user, goal, weekStart, zone, []⟩

/-- Sets the id of a date, keeping the order by date. -/
def put (date : Date) (id : Id) : List (Date × Id) → List (Date × Id)
  | [] => [(date, id)]
  | (e, x) :: rest =>
    if date < e then (date, id) :: (e, x) :: rest
    else if e = date then (date, id) :: rest
    else (e, x) :: put date id rest

/-- Dates and ids by date, the last id of a date that repeats. -/
def byDate (days : List (Date × Id)) : List (Date × Id) :=
  days.foldl (fun sorted (date, id) => put date id sorted) []

/-- The id of a date. -/
def lookup (date : Date) : List (Date × Id) → Option Id
  | [] => none
  | (e, x) :: rest => if e = date then some x else lookup date rest

@[simp] theorem lookup_put (date : Date) (id : Id) (days : List (Date × Id)) :
    lookup date (put date id days) = some id := by
  induction days with
  | nil => simp [put, lookup]
  | cons p rest ih =>
    obtain ⟨e, x⟩ := p
    simp only [put]
    split
    · simp [lookup]
    · split
      · simp [lookup]
      · next h => simp [lookup, h, ih]

/-- The end of the week, a date that is not part of it. -/
def weekEnd (w : Week) : Date := (w.weekStart.addDays? 7).getD Date.last

/-- A date lies in the week. -/
def covers (w : Week) (date : Date) : Bool := w.weekStart ≤ date && date < w.weekEnd

/-- The id of the day on a weekday, counted from Sunday. -/
def dayId? (w : Week) (weekday : Nat) : Option Id :=
  (w.weekStart.addDays? weekday).bind (lookup · w.days)

/-- Attaches a day of the same user and goal that lies in the week; says
whether that changed the week. -/
def attach (w : Week) (day : Day) : Except Violation (Bool × Week) :=
  if day.user ≠ w.user ∨ day.goal ≠ w.goal then .error (.foreignDay day.id w.id)
  else if !w.covers day.date then .error (.outsideWeek day.date w.weekStart)
  else .ok (lookup day.date w.days ≠ some day.id, { w with days := put day.date day.id w.days })

end Week
end UsageDiary
