import UsageDiary.Day

/-!
# The spread of a day

The minutes of usage in each quarter of an hour of a day. A spread has 96
entries on every day: quarters past the end of a short day stay empty, and
the last one of a long day reaches to the day's end. Main statement: the
number of entries (`Day.length_spread`).
-/

namespace UsageDiary.Day

/-- How many quarters of an hour a spread has. -/
def quarters : Nat := 96

/-- The start of a quarter of an hour of the day. -/
def quarterStart (d : Day) (quarter : Nat) : Instant :=
  (d.starts.shift? (Duration.ofMinutes (15 * quarter))).getD d.ends

/-- The end of a quarter of an hour of the day, which is the day's end for
the last one and never lies past it. -/
def quarterEnd (d : Day) (quarter : Nat) : Instant :=
  if quarter + 1 = quarters then d.ends
  else min (((d.quarterStart quarter).shift? (Duration.ofMinutes 15)).getD d.ends) d.ends

/-- The whole seconds that an activity shares with a stretch of time. -/
def sharedSeconds (a : Activity) (starts ends : Instant) : Nat :=
  ((min a.ends ends).since (max a.starts starts)).toSeconds.toNat

/-- The seconds of usage in a quarter of an hour of the day. -/
def quarterSeconds (d : Day) (quarter : Nat) : Nat :=
  let starts := d.quarterStart quarter
  let ends := d.quarterEnd quarter
  if ends ≤ starts then 0
  else d.activities.foldl (fun seconds a => seconds + sharedSeconds a starts ends) 0

/-- Seconds in minutes, half a minute rounded up, at most 32 bits. -/
def roundedMinutes (seconds : Nat) : Nat := min ((seconds + 30) / 60) 4294967295

/-- The minutes of usage in each quarter of an hour of the day. -/
def spread (d : Day) : List Nat :=
  (List.range quarters).map fun quarter => roundedMinutes (d.quarterSeconds quarter)

@[simp] theorem length_spread (d : Day) : d.spread.length = quarters := by simp [spread]

end UsageDiary.Day
