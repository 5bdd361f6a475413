import UsageDiary.Proofs.Calendar.Order

/-!
# Year, month and day

A date is the day of a month of a year: the year found for it is the one
that holds it (`Date.daysBeforeYear_le`, `Date.lt_daysBeforeYear_succ`), and
the date of its year, month and day is the date itself
(`Date.ofCivil?_civil`). Dates sort by year, then by month and then by day
(`Date.lt_iff_civil`).
-/

namespace UsageDiary

/-! ## Years -/

/-- How many days a year has. -/
def daysInYear (leap : Bool) : Nat := if leap then 366 else 365

theorem daysBeforeYear_succ (y : Int) :
    daysBeforeYear (y + 1) = daysBeforeYear y + daysInYear (isLeapYear y) := by
  simp only [daysBeforeYear, daysInYear, isLeapYear, Bool.and_eq_true, Bool.or_eq_true, beq_iff_eq,
    bne_iff_ne]
  split <;> omega

theorem daysBeforeYear_mono {y z : Int} (h : y ≤ z) : daysBeforeYear y ≤ daysBeforeYear z := by
  simp only [daysBeforeYear]
  omega

namespace Date

/-- The mean length of a year gives a year that is off by at most one. -/
theorem daysBeforeYear_guess (n : Int) :
    daysBeforeYear (n * 400 / 146097 - 1) ≤ n ∧ n < daysBeforeYear (n * 400 / 146097 + 1 + 1) := by
  simp only [daysBeforeYear]
  omega

theorem daysBeforeYear_yearOfDay (n : Int) :
    daysBeforeYear (yearOfDay n) ≤ n ∧ n < daysBeforeYear (yearOfDay n + 1) := by
  obtain ⟨before, behind⟩ := daysBeforeYear_guess n
  simp only [yearOfDay]
  split
  · next h => exact ⟨before, by rwa [Int.sub_add_cancel]⟩
  · next h =>
    split
    · next h' => exact ⟨h', behind⟩
    · next h' => exact ⟨Int.not_lt.mp h, Int.not_le.mp h'⟩

theorem daysBeforeYear_le (d : Date) : daysBeforeYear d.year ≤ d.day + epochDay :=
  (daysBeforeYear_yearOfDay _).1

theorem lt_daysBeforeYear_succ (d : Date) : d.day + epochDay < daysBeforeYear (d.year + 1) :=
  (daysBeforeYear_yearOfDay _).2

theorem day_eq_dayOfYear (d : Date) : d.day = daysBeforeYear d.year + d.dayOfYear - epochDay := by
  have := d.daysBeforeYear_le
  unfold dayOfYear
  omega

theorem dayOfYear_lt (d : Date) : d.dayOfYear < daysInYear (isLeapYear d.year) := by
  have := d.lt_daysBeforeYear_succ
  have := d.daysBeforeYear_le
  rw [daysBeforeYear_succ] at *
  unfold dayOfYear
  omega

/-! ## Months -/

/-- The month of a day of a year, counted from the start of the year. -/
def monthOf (leap : Bool) (n : Nat) : Nat := ((monthStarts leap).takeWhile (· ≤ n)).length

/-- The days of a year before a month. -/
def daysBeforeMonth (leap : Bool) (month : Nat) : Nat := (monthStarts leap).getD (month - 1) 0

/-- A day of a year lies in its month. -/
theorem monthOf_spec {leap : Bool} {n : Nat} (h : n < daysInYear leap) :
    1 ≤ monthOf leap n ∧ monthOf leap n ≤ 12 ∧ daysBeforeMonth leap (monthOf leap n) ≤ n ∧
      n < daysBeforeMonth leap (monthOf leap n) + daysInMonth leap (monthOf leap n) := by
  have all : ∀ (leap : Bool) (n : Fin 366), n.val < daysInYear leap →
      1 ≤ monthOf leap n ∧ monthOf leap n ≤ 12 ∧ daysBeforeMonth leap (monthOf leap n) ≤ n.val ∧
        n.val < daysBeforeMonth leap (monthOf leap n) + daysInMonth leap (monthOf leap n) := by
    decide +kernel
  have bound : n < 366 := Nat.lt_of_lt_of_le h (by unfold daysInYear; split <;> decide)
  exact all leap ⟨n, bound⟩ h

/-- A month ends before a later one starts. -/
theorem daysBeforeMonth_le (leap : Bool) {m m' : Nat} (pos : 1 ≤ m) (le : m' ≤ 12) (h : m < m') :
    daysBeforeMonth leap m + daysInMonth leap m ≤ daysBeforeMonth leap m' := by
  have all : ∀ (leap : Bool) (m m' : Fin 13), 1 ≤ m.val → m.val < m'.val →
      daysBeforeMonth leap m + daysInMonth leap m ≤ daysBeforeMonth leap m' := by decide
  exact all leap ⟨m, by omega⟩ ⟨m', by omega⟩ pos h

theorem month_spec (d : Date) : 1 ≤ d.month ∧ d.month ≤ 12 ∧ 1 ≤ d.dayOfMonth ∧
    d.dayOfMonth ≤ daysInMonth (isLeapYear d.year) d.month ∧
    d.dayOfYear = daysBeforeMonth (isLeapYear d.year) d.month + (d.dayOfMonth - 1) := by
  obtain ⟨pos, le, low, high⟩ := monthOf_spec d.dayOfYear_lt
  have hm : d.month = monthOf (isLeapYear d.year) d.dayOfYear := rfl
  have hd : d.dayOfMonth = d.dayOfYear - daysBeforeMonth (isLeapYear d.year) d.month + 1 := rfl
  rw [← hm] at pos le low high
  exact ⟨pos, le, by omega, by omega, by omega⟩

theorem daysInMonth_le (leap : Bool) (m : Nat) : daysInMonth leap m ≤ 31 := by
  unfold daysInMonth
  split
  · cases leap <;> decide
  all_goals decide

theorem dayOfMonth_le (d : Date) : d.dayOfMonth ≤ 31 :=
  Nat.le_trans d.month_spec.2.2.2.1 (daysInMonth_le ..)

/-! ## Dates -/

/-- A date is that of its year, month and day. -/
theorem ofCivil?_civil (d : Date) : ofCivil? d.year d.month d.dayOfMonth = some d := by
  obtain ⟨pos, le, first, last, days⟩ := d.month_spec
  have day : daysBeforeYear d.year + daysBeforeMonth (isLeapYear d.year) d.month +
      (d.dayOfMonth - 1 : Nat) - epochDay = d.day := by
    have := d.day_eq_dayOfYear
    omega
  rw [ofCivil?, if_pos ⟨pos, le, first, last⟩]
  change ofDay? (daysBeforeYear d.year + daysBeforeMonth (isLeapYear d.year) d.month +
    (d.dayOfMonth - 1 : Nat) - epochDay) = some d
  rw [day, ofDay?_day]

/-- A date of an earlier year, month or day comes earlier. -/
theorem lt_of_civil {d e : Date} (h : d.year < e.year ∨ d.year = e.year ∧
    (d.month < e.month ∨ d.month = e.month ∧ d.dayOfMonth < e.dayOfMonth)) : d < e := by
  rw [lt_def]
  rcases h with years | ⟨year, months⟩
  · have := d.lt_daysBeforeYear_succ
    have := e.daysBeforeYear_le
    have := daysBeforeYear_mono (show d.year + 1 ≤ e.year by omega)
    omega
  · obtain ⟨pos, -, first, last, days⟩ := d.month_spec
    obtain ⟨-, le, first', -, days'⟩ := e.month_spec
    have hd := d.day_eq_dayOfYear
    have he := e.day_eq_dayOfYear
    rw [year] at last days hd
    rcases months with months | ⟨month, day⟩
    · have := daysBeforeMonth_le (isLeapYear e.year) pos le months
      omega
    · rw [month] at days
      omega

/-- Dates sort by year, then by month and then by day. -/
theorem lt_iff_civil {d e : Date} : d < e ↔ d.year < e.year ∨ d.year = e.year ∧
    (d.month < e.month ∨ d.month = e.month ∧ d.dayOfMonth < e.dayOfMonth) := by
  refine ⟨fun h => ?_, lt_of_civil⟩
  by_contra later
  have cases : (e.year < d.year ∨ e.year = d.year ∧
      (e.month < d.month ∨ e.month = d.month ∧ e.dayOfMonth < d.dayOfMonth)) ∨
      e.year = d.year ∧ e.month = d.month ∧ e.dayOfMonth = d.dayOfMonth := by omega
  rcases cases with earlier | ⟨year, month, day⟩
  · exact lt_asymm h (lt_of_civil earlier)
  · have same := ofCivil?_civil e
    rw [year, month, day, ofCivil?_civil] at same
    cases same
    exact lt_irrefl _ h

end Date
end UsageDiary
