import Mathlib.Tactic.Simps.Basic
import UsageDiary.Proofs.Merge.Step

/-!
# Renaming ids

Days, their activities and weeks with other ids in the place of theirs. The
ids of users, goals and devices stay. What is done to a day, a week or a
store does not depend on the ids in it but for which are the same, so it
comes to the same thing before and after a renaming that is injective, or is
refused for the same reason (`Settings.decide?_rename`, `Day.add_rename`,
`Day.extend_rename`, `Week.attach_rename`, `MemoryStore.place_rename`).
-/

namespace UsageDiary

section Definitions

variable (ρ : Id → Id)

@[simps] def Activity.rename (a : Activity) : Activity := { a with id := ρ a.id }

@[simps] def Day.rename (d : Day) : Day :=
  { d with id := ρ d.id, activities := d.activities.map (·.rename ρ) }

@[simps] def Week.rename (w : Week) : Week :=
  { w with id := ρ w.id, days := w.days.map fun (date, id) => (date, ρ id) }

@[simps] def Slot.rename (s : Slot) : Slot := { s with day := s.day.map (·.rename ρ) }

@[simps] def MemoryStore.rename (m : MemoryStore) : MemoryStore :=
  ⟨m.days.map (·.rename ρ), m.weeks.map (·.rename ρ)⟩

def Decision.rename : Decision → Decision
  | create => create
  | extend id => extend (ρ id)
  | absorb a => absorb (a.rename ρ)

def Lookup.rename : Lookup → Lookup
  | empty => empty
  | current d => current (d.rename ρ)
  | following => following
  | preceding d? => preceding (d?.map (·.rename ρ))

@[simps] def Placement.rename (p : Placement) : Placement := { p with lookup := p.lookup.rename ρ }

def Outcome.rename : Outcome → Outcome
  | created a dayCreated => created (a.rename ρ) dayCreated
  | extended a => extended (a.rename ρ)
  | absorbed a => absorbed (a.rename ρ)

@[simps] def Merged.rename (r : Merged) : Merged := ⟨r.outcome.rename ρ, r.day.rename ρ⟩

def Violation.rename : Violation → Violation
  | outsideDay starts ends date day => outsideDay starts ends date (ρ day)
  | missingActivity activity date => missingActivity (ρ activity) date
  | foreignDay day week => foreignDay (ρ day) (ρ week)
  | v => v

/-- Of the errors only violations name ids of days, activities or weeks. -/
def Stop.rename : Stop → Stop
  | failed (.violation v) => failed (.violation (v.rename ρ))
  | stop => stop

end Definitions

variable {ρ : Id → Id}

@[simp] theorem Outcome.isPersisted_rename (o : Outcome) : (o.rename ρ).isPersisted = o.isPersisted := by
  cases o <;> rfl

@[simp] theorem Lookup.isLate_rename (l : Lookup) : (l.rename ρ).isLate = l.isLate := by
  cases l <;> rfl

@[simp] theorem Lookup.attaches_rename (l : Lookup) (slot : Slot) :
    (l.rename ρ).attaches (slot.rename ρ) = l.attaches slot := by
  cases l <;> rfl

/-! ## Activities of a day -/

theorem Activity.extendTo_rename (a : Activity) (ends : Instant) :
    (a.rename ρ).extendTo ends = (a.extendTo ends).rename ρ := by
  unfold extendTo
  rw [rename_ends]
  split <;> rfl

namespace Day

@[simp] theorem covers_rename (d : Day) (t : Instant) : (d.rename ρ).covers t = d.covers t := rfl

theorem last?_rename (d : Day) (device : Option Id) :
    (d.rename ρ).last? device = (d.last? device).map (·.rename ρ) := by
  unfold last?
  rw [rename_activities, ← List.map_reverse, List.find?_map]
  rfl

theorem create_rename (id user goal : Id) (zone : Zone) (date : Date) :
    create (ρ id) user goal zone date = (create id user goal zone date).map (·.rename ρ) := by
  unfold create
  cases zone.startOfDay date <;> cases zone.startOfNextDay date <;> rfl

theorem insert_rename (a : Activity) (as : List Activity) :
    insert (a.rename ρ) (as.map (·.rename ρ)) = (insert a as).map (·.rename ρ) := by
  induction as with
  | nil => rfl
  | cons b rest ih =>
    simp only [insert, List.map_cons, Activity.rename_starts, ih]
    split <;> rfl

theorem add_rename (d : Day) (a : Activity) :
    (d.rename ρ).add (a.rename ρ) = ((d.add a).map (·.rename ρ)).mapError (·.rename ρ) := by
  unfold add contains
  simp only [rename_starts, rename_ends, Activity.rename_starts, Activity.rename_ends,
    rename_activities, insert_rename]
  split <;> rfl

variable (injective : Function.Injective ρ)
include injective

theorem find?_rename (id : Id) (as : List Activity) : (as.map (·.rename ρ)).find? (·.id == ρ id) =
    (as.find? (·.id == id)).map (·.rename ρ) := by
  have same : (fun a : Activity => a.id == ρ id) ∘ Activity.rename ρ = (·.id == id) := by
    funext a
    exact Bool.eq_iff_iff.mpr (by simp [injective.eq_iff])
  rw [List.find?_map, same]

theorem updateFirst_rename (id : Id) (ends : Instant) (as : List Activity) :
    updateFirst (ρ id) (·.extendTo ends) (as.map (·.rename ρ)) =
      (updateFirst id (·.extendTo ends) as).map (·.rename ρ) := by
  induction as with
  | nil => rfl
  | cons b rest ih =>
    simp only [updateFirst, List.map_cons, Activity.rename_id, injective.eq_iff, ih,
      Activity.extendTo_rename]
    split <;> rfl

theorem extend_rename (d : Day) (id : Id) (ends : Instant) :
    (d.rename ρ).extend (ρ id) ends =
      ((d.extend id ends).map fun (d, a) => (d.rename ρ, a.rename ρ)).mapError (·.rename ρ) := by
  unfold extend
  rw [rename_activities, find?_rename injective, updateFirst_rename injective]
  cases d.activities.find? (·.id == id) with
  | none => rfl
  | some a =>
    simp only [Option.map_some, rename_ends, Activity.extendTo_rename]
    split <;> rfl

end Day

namespace Settings

variable (s : Settings) (d : Day) (e : UsageEvent)

theorem decide?_rename : s.decide? (d.rename ρ) e = (s.decide? d e).map (·.rename ρ) := by
  unfold decide?
  rw [Day.last?_rename]
  cases d.last? e.device with
  | none => rfl
  | some last =>
    simp only [Option.map_some, Activity.rename_starts, Activity.rename_ends]
    split
    · rfl
    · cases s.combineInterval? with
      | none => rfl
      | some combine =>
        simp only [Option.bind_eq_bind, Option.bind_some]
        split
        · rfl
        · split
          · cases s.skipWindow? with
            | none => rfl
            | some skip =>
              simp only [Option.bind_some]
              split <;> rfl
          · rfl

end Settings

/-! ## Weeks -/

namespace Week

theorem lookup_rename (date : Date) (days : List (Date × Id)) :
    lookup date (days.map fun (date, id) => (date, ρ id)) = (lookup date days).map ρ := by
  induction days with
  | nil => rfl
  | cons p rest ih =>
    simp only [lookup, List.map_cons, ih]
    split <;> rfl

theorem put_rename (date : Date) (id : Id) (days : List (Date × Id)) :
    put date (ρ id) (days.map fun (date, id) => (date, ρ id)) =
      (put date id days).map fun (date, id) => (date, ρ id) := by
  induction days with
  | nil => rfl
  | cons p rest ih =>
    simp only [put, List.map_cons, ih]
    split
    · rfl
    · split <;> rfl

theorem attach_rename (injective : Function.Injective ρ) (w : Week) (d : Day) :
    (w.rename ρ).attach (d.rename ρ) =
      ((w.attach d).map fun (changed, w) => (changed, w.rename ρ)).mapError (·.rename ρ) := by
  have entered : lookup d.date (w.days.map fun (date, id) => (date, ρ id)) = some (ρ d.id) ↔
      lookup d.date w.days = some d.id := by
    rw [lookup_rename]
    exact ⟨fun h => Option.map_injective injective (h.trans (Option.map_some ..).symm), fun h => by rw [h]; rfl⟩
  have covers : (w.rename ρ).covers d.date = w.covers d.date := rfl
  unfold attach
  simp only [Day.rename_user, Day.rename_goal, Day.rename_date, Day.rename_id, rename_user, rename_goal,
    rename_days, covers, entered, put_rename, ne_eq]
  repeat' split
  all_goals rfl

end Week

/-! ## Slots -/

namespace Slot

theorem load_rename (s : Slot) (day? : Option Day) :
    (s.rename ρ).load (day?.map (·.rename ρ)) = (s.load day?).rename ρ := by
  cases day? <;> rfl

theorem replace_rename (injective : Function.Injective ρ) (s : Slot) (d : Day) :
    (s.rename ρ).replace (d.rename ρ) = (s.replace d).rename ρ := by
  have same : ((s.day.map (·.rename ρ)).map (·.id) != some (ρ d.id)) = (s.day.map (·.id) != some d.id) := by
    cases s.day with
    | none => rfl
    | some c => exact Bool.eq_iff_iff.mpr (by simp [injective.eq_iff])
  simp only [replace, rename_day, rename_weekPending, Day.rename_id, same]
  rfl

end Slot

/-! ## The store -/

namespace MemoryStore

variable (m : MemoryStore)

theorem findDay_rename (user goal : Id) (date : Date) :
    (m.rename ρ).findDay user goal date = (m.findDay user goal date).map (·.rename ρ) := by
  unfold findDay rename
  rw [List.find?_map]
  rfl

theorem daysOf_rename (user goal : Id) :
    (m.rename ρ).daysOf user goal = (m.daysOf user goal).map (·.rename ρ) := by
  unfold daysOf rename
  rw [List.filter_map]
  rfl

theorem foldl_later_rename (days : List Day) (best : Option Day) :
    (days.map (·.rename ρ)).foldl later (best.map (·.rename ρ)) = (days.foldl later best).map (·.rename ρ) := by
  induction days generalizing best with
  | nil => rfl
  | cons d rest ih =>
    have next : later (best.map (·.rename ρ)) (d.rename ρ) = (later best d).map (·.rename ρ) := by
      cases best with
      | none => rfl
      | some b =>
        simp only [later, Option.map_some, Day.rename_date]
        split <;> rfl
    rw [List.map_cons, List.foldl_cons, List.foldl_cons, next, ih]

theorem findLast_rename (user goal : Id) :
    (m.rename ρ).findLast user goal = (m.findLast user goal).map (·.rename ρ) := by
  unfold findLast
  rw [daysOf_rename]
  exact foldl_later_rename _ none

theorem findWeek_rename (user goal : Id) (start : Date) :
    (m.rename ρ).findWeek user goal start = (m.findWeek user goal start).map (·.rename ρ) := by
  unfold findWeek rename
  rw [List.find?_map]
  rfl

theorem saveDay_rename (d : Day) : (m.rename ρ).saveDay (d.rename ρ) = (m.saveDay d).rename ρ := by
  unfold saveDay rename
  rw [map_put (f := Day.rename ρ) fun _ => rfl]
  rfl

theorem saveWeek_rename (w : Week) : (m.rename ρ).saveWeek (w.rename ρ) = (m.saveWeek w).rename ρ := by
  unfold saveWeek rename
  rw [map_put (f := Week.rename ρ) fun _ => rfl]
  rfl

theorem zones_rename : (Store.memory (m.rename ρ)).zones = (Store.memory m).zones := by
  unfold Store.zones rename
  simp only [List.map_map]
  rfl

variable (user goal : Id) (t : Instant)

theorem seek_rename (toTry unlisted : List Zone) (free? : Option (Zone × Date)) :
    (m.rename ρ).seek user goal t toTry unlisted free? =
      (m.seek user goal t toTry unlisted free?).map (·.rename ρ) := by
  fun_induction seek m user goal t toTry unlisted free? with
  | case1 => rw [seek]; rfl
  | case2 => rw [seek]; rfl
  | case3 unlisted free? zone rest undated => rw [seek, undated]; rfl
  | case4 unlisted free? zone rest date shows d holds covers =>
    rw [seek, shows]
    simp only [findDay_rename, holds, Option.map_some, Day.covers_rename, covers, if_true]
    rfl
  | case5 unlisted free? zone rest date shows d holds covers hz ih =>
    rw [seek, shows]
    simp only [findDay_rename, holds, Option.map_some, Day.covers_rename, covers]
    exact (if_pos hz).trans ih
  | case6 unlisted free? zone rest date shows d holds covers hz ih =>
    rw [seek, shows]
    simp only [findDay_rename, holds, Option.map_some, Day.covers_rename, covers]
    exact (if_neg hz).trans ih
  | case7 unlisted free? zone rest date shows holds ih =>
    rw [seek, shows]
    simp only [findDay_rename, holds, Option.map_none]
    exact ih

theorem place_rename (user : User) (goal : Id) (t : Instant) (cached : Option Day) :
    (m.rename ρ).place user goal t (cached.map (·.rename ρ)) =
      (m.place user goal t cached).map (·.rename ρ) := by
  unfold place
  cases user.zone.localDate? t with
  | none => rfl
  | some userDate =>
    cases cached with
    | none => rfl
    | some c =>
      simp only [Option.map_some, Day.covers_rename, Day.rename_ends, Day.rename_date, Day.rename_zone]
      split
      · rfl
      split
      · split
        · rfl
        · cases c.zone.localDate? t <;> rfl
      · unfold search
        rw [zones_rename]
        exact seek_rename ..

end MemoryStore

end UsageDiary
