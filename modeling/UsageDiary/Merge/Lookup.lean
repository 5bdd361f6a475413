import UsageDiary.Report
import UsageDiary.Store.Calls
import UsageDiary.User

/-!
# Finding the day of an event

The day that an event belongs to is found by the instant it starts. The
cached last day takes what it covers. After its end comes a later date, in
the user's zone where that date is later than the cached one and in the
cached day's zone otherwise. Before its start a stored day is searched for
that covers the instant: in the user's zone, the cached day's zone and the
zone of every day met that does not cover it.

Every zone is tried at most once, because a zone joins the ones to try only
from a list of the zones not tried so far.
-/

namespace UsageDiary

/-- Where an event stands to the cached last day. -/
inductive Lookup where
  | empty
  | current (day : Day)
  | following
  | preceding (day : Option Day)

/-- The word for a lookup. -/
def Lookup.word : Lookup → String
  | empty => "empty"
  | current _ => "current"
  | following => "following"
  | preceding _ => "preceding"

/-- A lookup with the zone and date of the day that takes the event. -/
structure Placement where
  lookup : Lookup
  zone : Zone
  date : Date

namespace Work

/-- The report of an instant that no day can take. -/
def nowhere (t : Instant) : LogEvent :=
  ⟨.warn, "Every candidate date holds a day that does not cover the event",
    [("instant", .text t.message)]⟩

/-- Searches the dates of an instant in the zones to try for a stored day
that covers it. Without one, the day goes to the first date that is free. -/
def searchPreceding (user goal : Id) (t : Instant) (toTry unlisted : List Zone)
    (free : Option (Zone × Date)) : Work Placement := do
  match toTry with
  | [] =>
    match free with
    | some (zone, date) => return ⟨.preceding none, zone, date⟩
    | none =>
      report (nowhere t)
      fail (.violation (.noDayFor t))
  | zone :: rest =>
    let date ← inRange (zone.localDate? t)
    match ← findDay user goal date with
    | some day =>
      if day.covers t then return ⟨.preceding (some day), day.zone, day.date⟩
      else if day.zone ∈ unlisted then
        searchPreceding user goal t (rest ++ [day.zone]) (unlisted.erase day.zone) free
      else searchPreceding user goal t rest unlisted free
    | none => searchPreceding user goal t rest unlisted (free.or (some (zone, date)))
termination_by toTry.length + unlisted.length
decreasing_by
  · next h =>
    have := List.length_erase_of_mem h
    have := List.length_pos_of_mem h
    simp only [List.length_append, List.length_cons, List.length_nil]
    omega
  · simp only [List.length_cons]; omega
  · simp only [List.length_cons]; omega

/-- The zones that a search starts with. -/
def firstZones (userZone cachedZone : Zone) : List Zone :=
  if cachedZone = userZone then [userZone] else [userZone, cachedZone]

/-- The user's zone is tried before any other. -/
theorem head?_firstZones (userZone cachedZone : Zone) :
    (firstZones userZone cachedZone).head? = some userZone := by
  unfold firstZones
  split <;> rfl

@[simp] theorem mem_firstZones {z userZone cachedZone : Zone} :
    z ∈ firstZones userZone cachedZone ↔ z = userZone ∨ z = cachedZone := by
  unfold firstZones
  split
  · next h => simp [h]
  · simp

theorem nodup_firstZones (userZone cachedZone : Zone) : (firstZones userZone cachedZone).Nodup := by
  unfold firstZones
  split
  · simp
  · next ne => simpa using Ne.symm ne

/-- Places an instant before the cached day. -/
def placePreceding (user : User) (cachedZone : Zone) (goal : Id) (t : Instant) : Work Placement := do
  let first := firstZones user.zone cachedZone
  let unlisted := (← get).store.zones.filter (· ∉ first)
  searchPreceding user.id goal t first unlisted none

/-- Places an instant by the cached last day. -/
def place (slot : Slot) (user : User) (goal : Id) (t : Instant) : Work Placement := do
  let userDate ← inRange (user.zone.localDate? t)
  match slot.day with
  | none => return ⟨.empty, user.zone, userDate⟩
  | some cached =>
    if cached.covers t then return ⟨.current cached, cached.zone, cached.date⟩
    else if cached.ends ≤ t then
      if cached.date < userDate then return ⟨.following, user.zone, userDate⟩
      else return ⟨.following, cached.zone, ← inRange (cached.zone.localDate? t)⟩
    else placePreceding user cached.zone goal t

end Work
end UsageDiary
