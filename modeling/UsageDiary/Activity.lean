import UsageDiary.Calendar.Instant
import UsageDiary.Id

/-!
# Activities

One stretch of usage, reported by a device for an application where these
are known. Its end only moves forward (`Activity.ends_le_extendTo`).
-/

namespace UsageDiary

/-- One stretch of usage. -/
structure Activity where
  id : Id
  starts : Instant
  ends : Instant
  device : Option Id
  app : Option String
deriving DecidableEq

namespace Activity

/-- How long an activity lasts. -/
def duration (a : Activity) : Duration := a.ends.since a.starts

/-- The whole minutes of an activity. A length that is negative or takes
more than 32 bits counts as none. -/
def minutes (a : Activity) : Nat :=
  let m := a.duration.toMinutes
  if 0 ≤ m ∧ m < 4294967296 then m.toNat else 0

/-- Moves the end forward; an earlier end changes nothing. -/
def extendTo (a : Activity) (ends : Instant) : Activity :=
  if a.ends < ends then { a with ends := ends } else a

theorem ends_le_extendTo (a : Activity) (ends : Instant) : a.ends ≤ (a.extendTo ends).ends := by
  unfold extendTo
  split
  · next h => rw [Instant.lt_def] at h; rw [Instant.le_def]; simp only; omega
  · exact Or.inr ⟨rfl, Nat.le_refl _⟩

end Activity
end UsageDiary
