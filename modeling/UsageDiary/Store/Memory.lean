import UsageDiary.Week

/-!
# Days and weeks in memory

A store that holds days and weeks themselves, one day for each user, goal
and date, and one week for each user, goal and first date. Main statements:
what is saved is found (`MemoryStore.findDay_saveDay`), and saving leaves
every other key as it was (`MemoryStore.findDay_saveDay_of_ne`).
-/

namespace UsageDiary

/-- Days and weeks, at most one for each key. -/
structure MemoryStore where
  days : List Day := []
  weeks : List Week := []
deriving DecidableEq

namespace MemoryStore

/-- Puts an item in the place of the first one of its kind, or at the end. -/
def put {α : Type} (same : α → Bool) (a : α) : List α → List α
  | [] => [a]
  | b :: rest => if same b then a :: rest else b :: put same a rest

/-- The day is that of a user, goal and date. -/
def isDay (user goal : Id) (date : Date) (d : Day) : Bool :=
  d.user == user && d.goal == goal && d.date == date

/-- The week is that of a user, goal and first date. -/
def isWeek (user goal : Id) (weekStart : Date) (w : Week) : Bool :=
  w.user == user && w.goal == goal && w.weekStart == weekStart

/-- The later of two days by date. -/
def later (best? : Option Day) (d : Day) : Option Day :=
  match best? with
  | some best => if best.date < d.date then some d else some best
  | none => some d

/-- The days of a user and goal. -/
def daysOf (s : MemoryStore) (user goal : Id) : List Day :=
  s.days.filter fun d => d.user == user && d.goal == goal

/-- The weeks of a user and goal. -/
def weeksOf (s : MemoryStore) (user goal : Id) : List Week :=
  s.weeks.filter fun w => w.user == user && w.goal == goal

/-- The day of a user and goal with the greatest date. -/
def findLast (s : MemoryStore) (user goal : Id) : Option Day :=
  (s.daysOf user goal).foldl later none

/-- The day of a user, goal and date. -/
def findDay (s : MemoryStore) (user goal : Id) (date : Date) : Option Day :=
  s.days.find? (isDay user goal date)

/-- The week of a user, goal and first date. -/
def findWeek (s : MemoryStore) (user goal : Id) (weekStart : Date) : Option Week :=
  s.weeks.find? (isWeek user goal weekStart)

/-- Saves a day in the place of the one of the same user, goal and date. -/
def saveDay (s : MemoryStore) (d : Day) : MemoryStore :=
  { s with days := put (isDay d.user d.goal d.date) d s.days }

/-- Saves a week in the place of the one of the same user, goal and first
date. -/
def saveWeek (s : MemoryStore) (w : Week) : MemoryStore :=
  { s with weeks := put (isWeek w.user w.goal w.weekStart) w s.weeks }

theorem find?_put {α : Type} {same : α → Bool} {a : α} (h : same a = true) (as : List α) :
    (put same a as).find? same = some a := by
  induction as with
  | nil => simp [put, h]
  | cons b rest ih =>
    simp only [put]
    split
    · simp [h]
    · next hb => rw [List.find?_cons_of_neg hb, ih]

theorem find?_put_of_disjoint {α : Type} {same p : α → Bool} {a : α} (ha : p a = false)
    (disjoint : ∀ b, same b = true → p b = false) (as : List α) :
    (put same a as).find? p = as.find? p := by
  induction as with
  | nil => simp [put, ha]
  | cons b rest ih =>
    simp only [put]
    split
    · next hb => simp [ha, disjoint b hb]
    · simp only [List.find?_cons, ih]

@[simp] theorem findDay_saveDay (s : MemoryStore) (d : Day) :
    (s.saveDay d).findDay d.user d.goal d.date = some d :=
  find?_put (by simp [isDay]) s.days

theorem findDay_saveDay_of_ne (s : MemoryStore) (d : Day) {user goal : Id} {date : Date}
    (h : ¬ (d.user = user ∧ d.goal = goal ∧ d.date = date)) :
    (s.saveDay d).findDay user goal date = s.findDay user goal date := by
  refine find?_put_of_disjoint ?_ ?_ s.days
  · simp only [isDay, Bool.and_eq_false_iff, beq_eq_false_iff_ne]
    grind
  · intro b hb
    simp only [isDay, Bool.and_eq_true, beq_iff_eq] at hb
    simp only [isDay, Bool.and_eq_false_iff, beq_eq_false_iff_ne]
    grind

end MemoryStore
end UsageDiary
