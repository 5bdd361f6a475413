import UsageDiary.Day
import UsageDiary.Proofs.Calendar.Order
import UsageDiary.Zone.Fixed

/-!
# Regular zones and the days in them

A zone is regular if its calendar never goes back and the start that it
gives a date is the first instant of that date. The bounds of a date then
part the instants that show it from those of other dates
(`Zone.Regular.start_le_iff`, `Zone.Regular.lt_next_iff`), and the day
opened for a date covers exactly the instants of that date
(`Day.covers_iff`): an instant before the day is of an earlier date
(`Day.date_lt_of_lt_starts`), and one at its end or later of a later date
(`Day.lt_date_of_ends_le`).

Zones that never change, by whole quarters of an hour, are regular
(`Zone.regular_of_fixed`), and two of them less than a day apart show
neighbouring dates (`Zone.near_of_fixed`).
-/

namespace UsageDiary

namespace Zone

/-- The calendar of the zone never goes back, and the start of a date is
its first instant. -/
structure Regular (z : Zone) : Prop where
  monotone : ∀ {t t' : Instant} {d d' : Date}, t ≤ t' → z.localDate? t = some d →
    z.localDate? t' = some d' → d ≤ d'
  first : ∀ {d : Date} {s : Instant}, z.startOfDay d = .ok s →
    z.localDate? s = some d ∧ ∀ {t : Instant}, z.localDate? t = some d → s ≤ t

/-- At no instant does the calendar of a zone run ahead of another one's by
more than a day. -/
def Near (z z' : Zone) : Prop :=
  ∀ {t : Instant} {d d' : Date}, z.localDate? t = some d → z'.localDate? t = some d' →
    d.day ≤ d'.day + 1

/-- The start of a date is the earliest instant of one of the readings of the
clock that the search tries, the first of them that has one. -/
theorem exists_quarter {z : Zone} {d : Date} {s : Instant} (h : z.startOfDay d = .ok s) :
    ∃ quarter : Nat, quarter ≤ latestStart ∧
      z.earliest? (d.day * secondsPerDay + quarter * 900) = some s ∧
      ∀ q : Nat, q < quarter → z.earliest? (d.day * secondsPerDay + q * 900) = none := by
  unfold startOfDay at h
  split at h
  · next start hs =>
    cases h
    obtain ⟨before, quarter, after, hl, he, hnone⟩ := List.findSome?_eq_some_iff.mp hs
    have tried : quarter ∈ List.range (latestStart + 1) := by simp [hl]
    rw [List.range_eq_range'] at hl
    obtain ⟨k, -, rfl, hafter⟩ := List.range'_eq_append_iff.mp hl
    obtain ⟨hquarter, -⟩ := List.range'_eq_cons_iff.mp hafter.symm
    exact ⟨quarter, Nat.le_of_lt_succ (List.mem_range.mp tried), he,
      fun q hq => hnone q (List.mem_range'_1.mpr (by omega))⟩
  · cases h

/-- The start of a date stands at a whole second. -/
theorem exists_of_startOfDay {z : Zone} {d : Date} {s : Instant} (h : z.startOfDay d = .ok s) :
    ∃ second, Instant.ofParts? second 0 = some s := by
  obtain ⟨quarter, -, he, -⟩ := exists_quarter h
  obtain ⟨second, -, hp⟩ := Option.bind_eq_some_iff.mp he
  exact ⟨second, hp⟩

theorem ordinary_of_startOfDay {z : Zone} {d : Date} {s : Instant} (h : z.startOfDay d = .ok s) :
    s.Ordinary := by
  obtain ⟨second, hs⟩ := exists_of_startOfDay h
  exact Instant.ordinary_of_ofParts? hs

theorem startOfNextDay_eq_ok {z : Zone} {d : Date} {s : Instant} (h : z.startOfNextDay d = .ok s) :
    ∃ next, d.next? = some next ∧ z.startOfDay next = .ok s := by
  unfold startOfNextDay at h
  split at h
  · next next hn => exact ⟨next, hn, h⟩
  · cases h

/-- The next date, which has a start, is the one that follows by number. -/
theorem startOfDay_of_next {z : Zone} {date later : Date} {next : Instant}
    (starts : z.startOfNextDay date = .ok next) (after : date < later)
    (near : later.day ≤ date.day + 1) : z.startOfDay later = .ok next := by
  obtain ⟨following, hnext, hs⟩ := startOfNextDay_eq_ok starts
  have same : following = later := by
    have hday := Date.day_of_next? hnext
    rw [Date.lt_def] at after
    exact Date.ext (by omega)
  exact same ▸ hs

namespace Regular

variable {z : Zone} {date shown : Date} {t bound : Instant}

/-- The start of a date is not after an instant that shows this date or a
later one, and only those. -/
theorem start_le_iff (regular : z.Regular) (starts : z.startOfDay date = .ok bound)
    (shows : z.localDate? t = some shown) : bound ≤ t ↔ date ≤ shown := by
  obtain ⟨showsStart, first⟩ := regular.first starts
  refine ⟨fun after => regular.monotone after showsStart shows, fun later => le_of_not_gt fun before => ?_⟩
  have earlier := regular.monotone (le_of_lt before) shows showsStart
  cases le_antisymm earlier later
  exact not_le_of_gt before (first shows)

/-- The end of a date is after an instant that shows this date or an earlier
one, and only those. -/
theorem lt_next_iff (regular : z.Regular) (ends : z.startOfNextDay date = .ok bound)
    (shows : z.localDate? t = some shown) : t < bound ↔ shown ≤ date := by
  obtain ⟨next, hnext, starts⟩ := startOfNextDay_eq_ok ends
  rw [← not_le, regular.start_le_iff starts shows, not_le]
  refine ⟨fun before => le_of_not_gt fun after => ?_, fun le => lt_of_le_of_lt le (Date.lt_next hnext)⟩
  exact not_lt_of_ge (Date.next_le hnext after) before

/-- An instant after the start of the date that follows another is of that
date or a later one. -/
theorem lt_date (regular : z.Regular) (ends : z.startOfNextDay date = .ok bound)
    (shows : z.localDate? t = some shown) (after : bound ≤ t) : date < shown :=
  lt_of_not_ge fun le => not_lt_of_ge after ((regular.lt_next_iff ends shows).mpr le)

end Regular

end Zone

namespace Day

/-- The bounds of a day are those of its date in its zone. -/
structure Bounded (d : Day) : Prop where
  starts : d.zone.startOfDay d.date = .ok d.starts
  ends : d.zone.startOfNextDay d.date = .ok d.ends

theorem bounded_of_create {id user goal : Id} {zone : Zone} {date : Date} {day : Day}
    (h : create id user goal zone date = .ok day) : day.Bounded := by
  obtain ⟨hs, he, hd⟩ := create_eq_ok h
  rw [hd]
  exact ⟨hs, he⟩

namespace Bounded

variable {d : Day} {t : Instant} {date : Date}

theorem ordinary_ends (h : d.Bounded) : d.ends.Ordinary := by
  obtain ⟨next, -, hs⟩ := Zone.startOfNextDay_eq_ok h.ends
  exact Zone.ordinary_of_startOfDay hs

/-- The date of a day has a date after it. -/
theorem lt_last (h : d.Bounded) : d.date < Date.last := by
  obtain ⟨next, hn, -⟩ := Zone.startOfNextDay_eq_ok h.ends
  exact lt_of_lt_of_le (Date.lt_next hn) next.upper

end Bounded

variable {d : Day} {t : Instant} {date : Date}

/-- An instant before a day is of an earlier date. -/
theorem date_lt_of_lt_starts (regular : d.zone.Regular) (bounded : d.Bounded)
    (h : d.zone.localDate? t = some date) (ht : t < d.starts) : date < d.date :=
  lt_of_not_ge fun le => not_le_of_gt ht ((regular.start_le_iff bounded.starts h).mpr le)

/-- An instant at the end of a day, or after it, is of a later date. -/
theorem lt_date_of_ends_le (regular : d.zone.Regular) (bounded : d.Bounded)
    (h : d.zone.localDate? t = some date) (ht : d.ends ≤ t) : d.date < date :=
  regular.lt_date bounded.ends h ht

theorem covers_def : d.covers t = true ↔ d.starts ≤ t ∧ t < d.ends := by
  simp [covers]

/-- A day covers exactly the instants of its date. -/
theorem covers_iff (regular : d.zone.Regular) (bounded : d.Bounded)
    (h : d.zone.localDate? t = some date) : d.covers t = true ↔ date = d.date := by
  rw [covers_def, regular.start_le_iff bounded.starts h, regular.lt_next_iff bounded.ends h]
  exact ⟨fun ⟨after, before⟩ => le_antisymm before after, fun same => ⟨le_of_eq same.symm, le_of_eq same⟩⟩

theorem starts_lt_ends (regular : d.zone.Regular) (bounded : d.Bounded) : d.starts < d.ends :=
  (covers_def.mp ((covers_iff regular bounded (regular.first bounded.starts).1).mpr rfl)).2

end Day

/-! ## Zones that never change -/

namespace Zone

variable {name name' : String} {base base' : Int}

theorem localDate?_of_fixed (t : Instant) :
    (⟨name, base, []⟩ : Zone).localDate? t = Date.ofDay? ((t.second + base) / 86400) := rfl

theorem day_of_fixed {t : Instant} {d : Date} (h : (⟨name, base, []⟩ : Zone).localDate? t = some d) :
    d.day = (t.second + base) / 86400 :=
  Date.day_of_ofDay? h

theorem earliest?_of_fixed (clock : Int) :
    (⟨name, base, []⟩ : Zone).earliest? clock = Instant.ofParts? (clock - base) 0 := rfl

/-- A start of a date is its midnight, or the first instant of the calendar
where midnight would lie before that. -/
theorem startOfDay_of_fixed (quarters : base % 900 = 0) {d : Date} {s : Instant}
    (h : (⟨name, base, []⟩ : Zone).startOfDay d = .ok s) :
    (s.second + base) / 86400 = d.day ∧ s.nano = 0 ∧
      (s.second = d.day * 86400 - base ∨ s.second = -8334601228800) := by
  obtain ⟨quarter, hq, he, hnone⟩ := exists_quarter h
  rw [earliest?_of_fixed] at he
  obtain ⟨hsecond, hnano⟩ := Instant.ofParts?_eq_some he
  simp only [secondsPerDay, latestStart] at hsecond hq
  have hlower := s.lower
  have hupper := s.upper
  refine ⟨by omega, hnano, ?_⟩
  by_cases hzero : quarter = 0
  · left
    omega
  · -- The quarter before is no instant. Since this one is, that one lies before the calendar.
    have hout := hnone (quarter - 1) (by omega)
    rw [earliest?_of_fixed] at hout
    have hbounds := Instant.ofParts?_eq_none hout
    simp only [secondsPerDay] at hbounds
    right
    omega

theorem regular_of_fixed (quarters : base % 900 = 0) : (⟨name, base, []⟩ : Zone).Regular where
  monotone {t t' d d'} hle h h' := by
    have hd := day_of_fixed h
    have hd' := day_of_fixed h'
    rw [Instant.le_def] at hle
    rw [Date.le_def]
    omega
  first {d s} h := by
    obtain ⟨hday, hnano, hs⟩ := startOfDay_of_fixed quarters h
    refine ⟨by rw [localDate?_of_fixed, hday, Date.ofDay?_day], fun {t} ht => ?_⟩
    have hd := day_of_fixed ht
    have hlower := t.lower
    rw [Instant.le_def]
    omega

theorem near_of_fixed (h : base ≤ base' + 86400) :
    (⟨name, base, []⟩ : Zone).Near ⟨name', base', []⟩ := by
  intro t d d' hd hd'
  have := day_of_fixed hd
  have := day_of_fixed hd'
  omega

theorem regular_utc : utc.Regular := regular_of_fixed (by decide)

theorem regular_east14 : east14.Regular := regular_of_fixed (by decide)

end Zone
end UsageDiary
