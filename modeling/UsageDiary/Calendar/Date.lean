/-!
# Dates

Dates of the proleptic Gregorian calendar, by the number of days since
1970-01-01. A date lies in the years -262143 to 262142, so a step past
either end has no date.

A year is found from a day number by the mean length of a year, corrected
by at most one. Main statements: a date's weekday is below seven
(`Date.weekday_lt`), and the Sunday of a date is at most six days before it
(`Date.weekStart_le`, `Date.lt_weekStart_add`).
-/

namespace UsageDiary

/-- A leap year of the Gregorian calendar. -/
def isLeapYear (year : Int) : Bool :=
  year % 4 == 0 && (year % 100 != 0 || year % 400 == 0)

/-- How many days lie before a year, counted from the start of year zero. -/
def daysBeforeYear (year : Int) : Int :=
  365 * year + (year + 3) / 4 - (year + 99) / 100 + (year + 399) / 400

/-- How many days of a year lie before each of its months. -/
def monthStarts (leap : Bool) : List Nat :=
  if leap then [0, 31, 60, 91, 121, 152, 182, 213, 244, 274, 305, 335]
  else [0, 31, 59, 90, 120, 151, 181, 212, 243, 273, 304, 334]

/-- How many days a month has. -/
def daysInMonth (leap : Bool) (month : Nat) : Nat :=
  match month with
  | 2 => if leap then 29 else 28
  | 4 | 6 | 9 | 11 => 30
  | _ => 31

/-- The days from the start of year zero to 1970-01-01. -/
def epochDay : Int := 719528

/-- A date, by the number of days since 1970-01-01. -/
@[ext] structure Date where
  day : Int
  lower : -96465292 ≤ day
  upper : day ≤ 95026236
deriving DecidableEq

namespace Date

instance : LE Date := ⟨fun a b => a.day ≤ b.day⟩
instance : LT Date := ⟨fun a b => a.day < b.day⟩
instance (a b : Date) : Decidable (a ≤ b) := inferInstanceAs (Decidable (a.day ≤ b.day))
instance (a b : Date) : Decidable (a < b) := inferInstanceAs (Decidable (a.day < b.day))

theorem le_def {a b : Date} : a ≤ b ↔ a.day ≤ b.day := Iff.rfl
theorem lt_def {a b : Date} : a < b ↔ a.day < b.day := Iff.rfl

/-- The date a number of days after 1970-01-01, if the calendar has it. -/
def ofDay? (day : Int) : Option Date :=
  if h : -96465292 ≤ day ∧ day ≤ 95026236 then some ⟨day, h.1, h.2⟩ else none

@[simp] theorem ofDay?_day (d : Date) : ofDay? d.day = some d := by
  simp [ofDay?, d.lower, d.upper]

theorem day_of_ofDay? {n : Int} {d : Date} (h : ofDay? n = some d) : d.day = n := by
  simp only [ofDay?] at h
  split at h
  · cases h; rfl
  · cases h

/-- 1970-01-01. -/
def epoch : Date := ⟨0, by decide, by decide⟩

/-- The last date of the calendar. -/
def last : Date := ⟨95026236, by decide, by decide⟩

/-- The date a number of days later, if the calendar has it. -/
def addDays? (d : Date) (n : Int) : Option Date := ofDay? (d.day + n)

/-- The following date, if the calendar has it. -/
def next? (d : Date) : Option Date := d.addDays? 1

/-- The year of a day number counted from the start of year zero. -/
def yearOfDay (n : Int) : Int :=
  let guess := n * 400 / 146097
  if n < daysBeforeYear guess then guess - 1
  else if daysBeforeYear (guess + 1) ≤ n then guess + 1
  else guess

/-- The year of a date. -/
def year (d : Date) : Int := yearOfDay (d.day + epochDay)

/-- The number of days of its year before a date. -/
def dayOfYear (d : Date) : Nat := (d.day + epochDay - daysBeforeYear d.year).toNat

/-- The month of a date, from 1 to 12. -/
def month (d : Date) : Nat :=
  ((monthStarts (isLeapYear d.year)).takeWhile (· ≤ d.dayOfYear)).length

/-- The day of the month of a date, from 1. -/
def dayOfMonth (d : Date) : Nat :=
  d.dayOfYear - (monthStarts (isLeapYear d.year)).getD (d.month - 1) 0 + 1

/-- The date of a year, month and day, if there is one. -/
def ofCivil? (year : Int) (month day : Nat) : Option Date :=
  let leap := isLeapYear year
  if 1 ≤ month ∧ month ≤ 12 ∧ 1 ≤ day ∧ day ≤ daysInMonth leap month then
    ofDay? (daysBeforeYear year + (monthStarts leap).getD (month - 1) 0 + (day - 1 : Nat) - epochDay)
  else none

/-- The day of the week, counted from Sunday. -/
def weekday (d : Date) : Nat := ((d.day + 4) % 7).toNat

theorem weekday_lt (d : Date) : d.weekday < 7 := by
  unfold weekday; omega

/-- The Sunday on or before a date; the date itself where the calendar
starts later. -/
def weekStart (d : Date) : Date := (d.addDays? (-d.weekday)).getD d

theorem weekStart_le (d : Date) : d.weekStart ≤ d := by
  unfold weekStart addDays?
  cases h : ofDay? (d.day + -d.weekday) with
  | none => exact Int.le_refl _
  | some s => have := day_of_ofDay? h; simp only [Option.getD_some, le_def]; omega

theorem lt_weekStart_add (d : Date) : d.day < d.weekStart.day + 7 := by
  have := d.weekday_lt
  unfold weekStart addDays?
  cases h : ofDay? (d.day + -d.weekday) with
  | none => simp only [Option.getD_none]; omega
  | some s => have := day_of_ofDay? h; simp only [Option.getD_some]; omega

end Date
end UsageDiary
