import UsageDiary.Merge.Basic
import UsageDiary.Proofs.Day.Order
import UsageDiary.Proofs.Run
import UsageDiary.Proofs.Store.Memory

/-!
# The ledger

How usage is recorded, told without a cache and without searching: a ledger
has the days of users and goals, with the activities of each in the order
they were created. An event goes to the day of the date that the user's zone
shows at its start (`Ledger.dayOf?`), is cut at the end of that day, and is
compared with the activity of its device that starts last
(`Ledger.record?`). A day that is opened for it is entered in its week
(`Ledger.enter`).

Where a store keeps the days in order of their activities' starts, it holds
the ledger arranged (`MemoryStore.arranged`).
-/

namespace UsageDiary

/-- Days and weeks, the activities of each day in the order they were
created, and the next id. -/
structure Ledger where
  store : MemoryStore := {}
  nextId : Nat

/-- The activity of a device that starts last, the latest created of equals. -/
def Day.latest? (d : Day) (device : Option Id) : Option Activity :=
  (d.activities.filter (·.device == device)).foldl laterStart none

namespace Ledger

/-- The day of the date that a user's zone shows, whether it was opened, and
the next id after that. -/
def dayOf? (l : Ledger) (user : User) (goal : Id) (t : Instant) : Option (Day × Bool × Nat) := do
  let date ← user.zone.localDate? t
  match l.store.findDay user.id goal date, Day.create ⟨l.nextId⟩ user.id goal user.zone date with
  | some d, _ => return (d, false, l.nextId)
  | none, .ok d => return (d, true, l.nextId + 1)
  | none, .error _ => none

/-- Creates the activity of an event in its day. -/
def create? (s : Settings) (d : Day) (opened : Bool) (e : UsageEvent) (next : Nat) :
    Option (Merged × Nat) := do
  let (starts, ends) ← s.stretch? d e
  let a : Activity := ⟨⟨next⟩, starts, ends, e.device, e.app⟩
  return (⟨.created a opened, { d with activities := d.activities ++ [a] }⟩, next + 1)

/-- Records an event in its day: it creates an activity where its device has
none, where it starts before the latest or beyond the combine interval after
its end. Otherwise it moves the end of that one forward, if by the skip
window or more. -/
def record? (s : Settings) (d : Day) (opened : Bool) (e : UsageEvent) (next : Nat) :
    Option (Merged × Nat) := do
  let combine ← s.combineInterval?
  let skip ← s.skipWindow?
  match d.latest? e.device with
  | none => create? s d opened e next
  | some a =>
    if e.starts < a.starts ∨ combine < e.starts.since a.ends then create? s d opened e next
    else if a.ends < e.ends ∧ skip ≤ e.ends.since a.ends then
      let longer : Activity := { a with ends := e.ends }
      let activities := d.activities.map fun b => if b.id = a.id then longer else b
      return (⟨.extended longer, { d with activities }⟩, next)
    else return (⟨.absorbed a, d⟩, next)

/-- Enters a day in its week, which is created with the first of its days. -/
def enter (l : Ledger) (d : Day) : Ledger :=
  match l.store.findWeek d.user d.goal d.date.weekStart with
  | some week =>
    { l with store := l.store.saveWeek { week with days := Week.put d.date d.id week.days } }
  | none =>
    { store := l.store.saveWeek
        ⟨⟨l.nextId⟩, d.user, d.goal, d.date.weekStart, d.zone, [(d.date, d.id)]⟩
      nextId := l.nextId + 1 }

/-- Merges an event into the ledger: what it does to its day, and the ledger
after it. -/
def merge? (s : Settings) (l : Ledger) (user : User) (goal : Id) (e : UsageEvent) :
    Option (Merged × Ledger) := do
  let (d, opened, next) ← l.dayOf? user goal e.starts
  let (r, next) ← record? s d opened { e with ends := min e.ends d.ends } next
  let l : Ledger := ⟨l.store.saveDay r.day, next⟩
  return (r, if opened then l.enter r.day else l)

/-- What the merges among acts do to their days, one after the other, and
the ledger after them. It takes no notice of other acts. -/
def run? (s : Settings) (l : Ledger) : List Act → Option (List Merged × Ledger)
  | [] => some ([], l)
  | .merge user goal e :: rest => do
    let (r, l) ← l.merge? s user goal e
    let (rs, l) ← l.run? s rest
    return (r :: rs, l)
  | _ :: rest => l.run? s rest

end Ledger

/-! ## Days in order of starts -/

/-- The day with its activities in order of their starts. -/
def Day.arranged (d : Day) : Day := { d with activities := inOrder d.activities }

/-- The store with the activities of each day in order of their starts. -/
def MemoryStore.arranged (m : MemoryStore) : MemoryStore := { m with days := m.days.map Day.arranged }

/-- What was done, and the day after it in order. -/
def Merged.arranged (r : Merged) : Merged := { r with day := r.day.arranged }

theorem Day.arranged_of_nil {d : Day} (h : d.activities = []) : d.arranged = d := by
  unfold arranged
  rw [h, inOrder, List.foldl_nil, ← h]

/-- The activity of a device that starts last stands last among the day's
in order. -/
theorem Day.last?_arranged (d : Day) (device : Option Id) : d.arranged.last? device = d.latest? device :=
  find?_reverse_inOrder _ d.activities

namespace MemoryStore

theorem findDay_arranged (m : MemoryStore) (user goal : Id) (date : Date) :
    m.arranged.findDay user goal date = (m.findDay user goal date).map Day.arranged := by
  unfold findDay arranged
  rw [List.find?_map]
  rfl

theorem saveDay_arranged (m : MemoryStore) (d : Day) :
    (m.saveDay d).arranged = m.arranged.saveDay d.arranged := by
  unfold arranged saveDay
  congr 1
  exact map_put (f := Day.arranged) (fun _ => rfl) d m.days

end MemoryStore
end UsageDiary
