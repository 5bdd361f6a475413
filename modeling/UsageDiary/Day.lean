import UsageDiary.Activity
import UsageDiary.Error
import UsageDiary.Goal

/-!
# Days

The usage of one user under one goal on one local date: the bounds of the
date in the zone it was opened in, and the activities in order of their
starts, later ones after earlier ones of the same start.

A new activity has to lie inside the day, and an activity may grow up to
the day's end. Main statements: opening a day keeps what identifies it
(`Day.create_eq_ok`), and adding an activity makes the list one longer
(`Day.length_insert`).
-/

namespace UsageDiary

/-- The usage of a user under a goal on a date. -/
structure Day where
  id : Id
  user : Id
  goal : Id
  date : Date
  zone : Zone
  starts : Instant
  ends : Instant
  activities : List Activity
deriving DecidableEq

namespace Day

/-- Opens an empty day for a date of a zone. -/
def create (id user goal : Id) (zone : Zone) (date : Date) : Except ZoneError Day := do
  let starts ← zone.startOfDay date
  let ends ← zone.startOfNextDay date
  return ⟨id, user, goal, date, zone, starts, ends, []⟩

/-- Puts an activity behind every activity that does not start after it. -/
def insert (a : Activity) : List Activity → List Activity
  | [] => [a]
  | b :: rest => if b.starts ≤ a.starts then b :: insert a rest else a :: b :: rest

@[simp] theorem length_insert (a : Activity) (as : List Activity) :
    (insert a as).length = as.length + 1 := by
  induction as with
  | nil => rfl
  | cons b rest ih => simp only [insert]; split <;> simp [ih]

/-- Activities in order of their starts, those of one start in the order given. -/
def inOrder (as : List Activity) : List Activity := as.foldl (fun sorted a => insert a sorted) []

/-- A day with the activities that were kept for it. -/
def restore (id user goal : Id) (zone : Zone) (date : Date) (activities : List Activity) :
    Except ZoneError Day := do
  let day ← create id user goal zone date
  return { day with activities := inOrder activities }

theorem create_eq_ok {id user goal : Id} {zone : Zone} {date : Date} {day : Day}
    (h : create id user goal zone date = .ok day) :
    zone.startOfDay date = .ok day.starts ∧ zone.startOfNextDay date = .ok day.ends ∧
      day = ⟨id, user, goal, date, zone, day.starts, day.ends, []⟩ := by
  unfold create at h
  cases hs : zone.startOfDay date with
  | error e => rw [hs] at h; cases h
  | ok starts =>
    cases he : zone.startOfNextDay date with
    | error e => rw [hs, he] at h; cases h
    | ok ends => rw [hs, he] at h; cases h; exact ⟨rfl, rfl, rfl⟩

/-- An instant lies in the day; its end does not. -/
def covers (d : Day) (t : Instant) : Bool := d.starts ≤ t && t < d.ends

/-- A stretch of time lies in the day, its end at most at the day's end. -/
def contains (d : Day) (starts ends : Instant) : Bool :=
  starts ≤ ends && d.starts ≤ starts && ends ≤ d.ends

/-- The activity of a device that starts last, the latest added of equals. -/
def last? (d : Day) (device : Option Id) : Option Activity :=
  d.activities.reverse.find? (·.device == device)

/-- Adds an activity that lies in the day. -/
def add (d : Day) (a : Activity) : Except Violation Day :=
  if d.contains a.starts a.ends then .ok { d with activities := insert a d.activities }
  else .error (.outsideDay a.starts a.ends d.date d.id)

/-- Changes the first activity with an id. -/
def updateFirst (id : Id) (f : Activity → Activity) : List Activity → List Activity
  | [] => []
  | a :: rest => if a.id = id then f a :: rest else a :: updateFirst id f rest

/-- Moves the end of an activity forward, up to the end of the day. -/
def extend (d : Day) (id : Id) (ends : Instant) : Except Violation (Day × Activity) :=
  match d.activities.find? (·.id == id) with
  | none => .error (.missingActivity id d.date)
  | some a =>
    if d.ends < ends then .error (.pastEndOfDay ends d.date)
    else .ok ({ d with activities := updateFirst id (·.extendTo ends) d.activities },
      a.extendTo ends)

/-- The sum of the whole minutes of the activities, in 32 bits. -/
def totalMinutes (d : Day) : Nat :=
  (d.activities.foldl (fun minutes a => minutes + a.minutes) 0) % 4294967296

/-- The day keeps within a goal. -/
def isAccomplished (d : Day) (g : Goal) : Bool :=
  match g.kind with
  | .noGo => d.activities.isEmpty
  | .budget maxMinutes => d.totalMinutes ≤ maxMinutes

/-- The minutes of usage beyond what a goal allows. -/
def minutesBeyond (d : Day) (g : Goal) : Nat :=
  match g.kind with
  | .noGo => d.totalMinutes
  | .budget maxMinutes => d.totalMinutes - maxMinutes

end Day
end UsageDiary
