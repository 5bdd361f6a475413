import UsageDiary.Calendar.Date

/-!
# Instants

Points of universal time to the nanosecond, by the second since 1970 and
the nanoseconds into it. A second may be followed by a leap second: its
nanoseconds then count on past 10^9, and the instant sorts before the next
second. Lengths of time are numbers of nanoseconds.

Main statement: an ordinary instant moved by a length of time is that many
nanoseconds away (`Instant.shiftParts_of_ordinary`).
-/

namespace UsageDiary

/-- A length of time in nanoseconds. -/
abbrev Duration := Int

/-- A second in nanoseconds. -/
def nanosPerSecond : Int := 1000000000

/-- A day in seconds. -/
def secondsPerDay : Int := 86400

namespace Duration

/-- A number of milliseconds as a length of time. -/
def ofMillis (ms : Int) : Duration := ms * 1000000

/-- A number of seconds as a length of time. -/
def ofSeconds (s : Int) : Duration := s * nanosPerSecond

/-- A number of minutes as a length of time. -/
def ofMinutes (m : Int) : Duration := ofSeconds (m * 60)

/-- The whole milliseconds of a length of time, cut towards zero. -/
def toMillis (d : Duration) : Int := Int.tdiv d 1000000

/-- The whole seconds of a length of time, cut towards zero. -/
def toSeconds (d : Duration) : Int := Int.tdiv d nanosPerSecond

/-- The whole minutes of a length of time, cut towards zero. -/
def toMinutes (d : Duration) : Int := Int.tdiv (toSeconds d) 60

end Duration

/-- A point of universal time: the second since 1970 and the nanoseconds
into it, which reach 10^9 in a leap second. -/
@[ext] structure Instant where
  second : Int
  nano : Nat
  lower : -8334601228800 ≤ second
  upper : second ≤ 8210266876799
  nano_lt : nano < 2000000000
deriving DecidableEq

namespace Instant

/-- Instants sort by second and then by nanoseconds. -/
instance : LT Instant := ⟨fun a b => a.second < b.second ∨ (a.second = b.second ∧ a.nano < b.nano)⟩
instance : LE Instant := ⟨fun a b => a.second < b.second ∨ (a.second = b.second ∧ a.nano ≤ b.nano)⟩
instance (a b : Instant) : Decidable (a < b) :=
  inferInstanceAs (Decidable (a.second < b.second ∨ (a.second = b.second ∧ a.nano < b.nano)))
instance (a b : Instant) : Decidable (a ≤ b) :=
  inferInstanceAs (Decidable (a.second < b.second ∨ (a.second = b.second ∧ a.nano ≤ b.nano)))
instance : Max Instant := ⟨fun a b => if a ≤ b then b else a⟩
instance : Min Instant := ⟨fun a b => if a ≤ b then a else b⟩

theorem lt_def {a b : Instant} :
    a < b ↔ a.second < b.second ∨ (a.second = b.second ∧ a.nano < b.nano) := Iff.rfl

theorem le_def {a b : Instant} :
    a ≤ b ↔ a.second < b.second ∨ (a.second = b.second ∧ a.nano ≤ b.nano) := Iff.rfl

/-- An instant outside every leap second. -/
def Ordinary (t : Instant) : Prop := t.nano < 1000000000

instance (t : Instant) : Decidable t.Ordinary := inferInstanceAs (Decidable (_ < _))

/-- The nanoseconds from 1970 to an instant, a leap second counted with the
second before it. -/
def nanos (t : Instant) : Int := t.second * nanosPerSecond + t.nano

/-- The instant of a second and the nanoseconds into it, if the calendar
has it. -/
def ofParts? (second : Int) (nano : Nat) : Option Instant :=
  if h : (-8334601228800 ≤ second ∧ second ≤ 8210266876799) ∧ nano < 2000000000 then
    some ⟨second, nano, h.1.1, h.1.2, h.2⟩
  else none

/-- 1970-01-01 at midnight. -/
def epoch : Instant := ⟨0, 0, by decide, by decide, by decide⟩

/-- The second and nanoseconds reached by moving from a second and its
nanoseconds by `d`. A move that leaves a leap second forwards starts from
the second before it, and one of a second or more backwards from the second
after it; a smaller move keeps to the second and its leap second. -/
def shiftParts (second : Int) (nano : Int) (d : Duration) : Int × Int :=
  let seconds := d.toSeconds
  let rest := Int.tmod d nanosPerSecond
  if nano < nanosPerSecond then carry second nano seconds rest
  else if 0 < seconds ∨ (0 < rest ∧ 2 * nanosPerSecond ≤ nano + rest) then
    carry second (nano - nanosPerSecond) seconds rest
  else if seconds < 0 then carry (second + 1) (nano - nanosPerSecond) seconds rest
  else (second, nano + rest)
where
  /-- Adds seconds and nanoseconds and brings the nanoseconds into their range. -/
  carry (second nano seconds rest : Int) : Int × Int :=
    (second + seconds + (nano + rest) / nanosPerSecond, (nano + rest) % nanosPerSecond)

/-- The instant reached by moving from an instant by a length of time, if
the calendar has it. -/
def shift? (t : Instant) (d : Duration) : Option Instant :=
  let moved := shiftParts t.second t.nano d
  ofParts? moved.1 moved.2.toNat

theorem shiftParts_of_ordinary {t : Instant} (h : t.Ordinary) (d : Duration) :
    (shiftParts t.second t.nano d).1 * nanosPerSecond + (shiftParts t.second t.nano d).2 =
      t.nanos + d := by
  have hn : (t.nano : Int) < nanosPerSecond := by
    simp only [nanosPerSecond]; unfold Ordinary at h; omega
  have hd : d.toSeconds * nanosPerSecond + Int.tmod d nanosPerSecond = d := Int.tdiv_mul_add_tmod ..
  have hm := Int.mul_ediv_add_emod (t.nano + Int.tmod d nanosPerSecond) nanosPerSecond
  simp only [shiftParts, hn, if_true, shiftParts.carry, nanos]
  simp only [nanosPerSecond] at hd hm ⊢
  omega

/-- The second of the day. -/
def secondOfDay (t : Instant) : Int := t.second % secondsPerDay

/-- The length of time from `earlier` to `t`. A leap second at the end that
falls earlier in its day than the other end counts one more second. -/
def since (t earlier : Instant) : Duration :=
  let leap : Int :=
    if earlier.secondOfDay < t.secondOfDay ∧ ¬ earlier.Ordinary then 1
    else if t.secondOfDay < earlier.secondOfDay ∧ ¬ t.Ordinary then -1
    else 0
  (t.second - earlier.second + leap) * nanosPerSecond + ((t.nano : Int) - earlier.nano)

theorem since_of_ordinary {t earlier : Instant} (ht : t.Ordinary) (he : earlier.Ordinary) :
    t.since earlier = t.nanos - earlier.nanos := by
  simp only [since, ht, he, not_true_eq_false, and_false, if_false, nanos, nanosPerSecond]
  change (_ : Int) = _
  omega

end Instant
end UsageDiary
