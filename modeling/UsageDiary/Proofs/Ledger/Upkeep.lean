import UsageDiary.Proofs.Ledger.Recording
import UsageDiary.Proofs.Merge.Effect
import UsageDiary.Proofs.Week.Entries

/-!
# How a ledger is kept

What each step of the ledger leaves: the day of an event is the stored one
of its date, or an empty one at a free date (`Ledger.Takes`), and recording
changes its activities only (`Ledger.Leaves`). So the weeks have exactly the
ids of the days, and no two activities of a day share an id
(`Ledger.WellKept`), whatever is merged (`Ledger.WellKept.merge?`).
-/

namespace UsageDiary.Ledger

variable {s : Settings} {l l' : Ledger} {user : User} {goal : Id} {e : UsageEvent} {d : Day}
  {opened : Bool} {next next' : Nat} {r : Merged}

/-- The day that an event goes to: the stored one of its date, unless it was
opened at a free date. -/
structure Takes (l : Ledger) (user goal : Id) (d : Day) (opened : Bool) (next : Nat) : Prop where
  key : d.user = user ∧ d.goal = goal
  found : l.store.findDay user goal d.date = if opened then none else some d
  le : l.nextId ≤ next
  nil : opened = true → d.activities = []

theorem takes_of_dayOf? {t : Instant} (h : l.dayOf? user goal t = some (d, opened, next)) :
    l.Takes user.id goal d opened next := by
  unfold dayOf? at h
  obtain ⟨date, -, h⟩ := Option.bind_eq_some_iff.mp h
  cases found : l.store.findDay user.id goal date with
  | some d' =>
    simp only [found] at h
    cases h
    obtain ⟨huser, hgoal, hdate⟩ := MemoryStore.key_of_findDay found
    exact ⟨⟨huser, hgoal⟩, by rw [hdate, found]; rfl, Nat.le_refl _, nofun⟩
  | none =>
    cases created : Day.create ⟨l.nextId⟩ user.id goal user.zone date with
    | ok d' =>
      simp only [found, created] at h
      cases h
      rw [(Day.create_eq_ok created).2.2]
      exact ⟨⟨rfl, rfl⟩, found, Nat.le_succ _, fun _ => rfl⟩
    | error z =>
      simp only [found, created] at h
      cases h

/-- What recording an event leaves of its day: all but the activities, and
all of it if nothing is to be saved. -/
structure Leaves (d : Day) (next : Nat) (r : Merged) (next' : Nat) : Prop where
  rest : r.day = { d with activities := r.day.activities }
  labelled : r.day.Labelled next'
  le : next ≤ next'
  unsaved : r.outcome.isPersisted = false → r.day = d

theorem leaves_of_create? (labelled : d.Labelled next)
    (h : create? s d opened e next = some (r, next')) : Leaves d next r next' := by
  unfold create? at h
  obtain ⟨⟨starts, ends⟩, -, h⟩ := Option.bind_eq_some_iff.mp h
  cases h
  exact ⟨rfl, labelled.append rfl, Nat.le_succ _, nofun⟩

theorem leaves_of_record? (labelled : d.Labelled next)
    (h : record? s d opened e next = some (r, next')) : Leaves d next r next' := by
  unfold record? at h
  obtain ⟨combine, -, h⟩ := Option.bind_eq_some_iff.mp h
  obtain ⟨skip, -, h⟩ := Option.bind_eq_some_iff.mp h
  cases latest : d.latest? e.device with
  | none =>
    rw [latest] at h
    exact leaves_of_create? labelled h
  | some a =>
    simp only [latest] at h
    split at h
    · exact leaves_of_create? labelled h
    split at h
    · cases h
      refine ⟨rfl, labelled.map fun b => ?_, Nat.le_refl _, nofun⟩
      split
      · next hid => exact hid.symm
      · rfl
    · cases h
      exact ⟨rfl, labelled, Nat.le_refl _, fun _ => rfl⟩

/-- Entering a day is attaching it, if its date has no entry. -/
theorem attached_enter (free : l.store.entered? d.user d.goal d.date = none) :
    Attached l.store d l.nextId (l.enter d).store (l.enter d).nextId := by
  unfold enter
  cases found : l.store.findWeek d.user d.goal d.date.weekStart with
  | some week =>
    rw [MemoryStore.entered?_of_findWeek found] at free
    exact .changed found (by rw [free]; exact nofun)
  | none => exact .created found

/-- The weeks have the ids of the days, and no others, and the activities of
a day bear distinct ids. -/
structure WellKept (l : Ledger) : Prop where
  entered : ∀ user goal date, l.store.entered? user goal date =
    (l.store.findDay user goal date).map (·.id)
  labelled : ∀ d ∈ l.store.days, d.Labelled l.nextId

theorem WellKept.labelled_of_takes (h : l.WellKept) (takes : l.Takes user.id goal d opened next) :
    d.Labelled next := by
  cases opened with
  | true => exact .of_nil (takes.nil rfl)
  | false => exact (h.labelled d (MemoryStore.mem_of_findDay takes.found)).mono takes.le

/-- The entry of a day that an event was recorded in, which is none if it was
opened. -/
theorem WellKept.entered?_of_takes (h : l.WellKept) (takes : l.Takes user.id goal d opened next)
    (leaves : Leaves d next r next') :
    (l.store.saveDay r.day).entered? r.day.user r.day.goal r.day.date =
      if opened then none else some r.day.id := by
  rw [leaves.rest, MemoryStore.entered?_saveDay, takes.key.1, takes.key.2, h.entered, takes.found]
  cases opened <;> rfl

/-- A ledger stays well kept. A day that was there keeps its id, and one
that is opened is entered. -/
theorem WellKept.merge? (h : l.WellKept) (merged : l.merge? s user goal e = some (r, l')) :
    l'.WellKept := by
  unfold Ledger.merge? at merged
  obtain ⟨⟨d, opened, next⟩, hday, merged⟩ := Option.bind_eq_some_iff.mp merged
  obtain ⟨⟨r', next'⟩, hrecord, merged⟩ := Option.bind_eq_some_iff.mp merged
  cases merged
  have takes := takes_of_dayOf? hday
  have leaves := leaves_of_record? (h.labelled_of_takes takes) hrecord
  have entry := h.entered?_of_takes takes leaves
  have all (e : Day) (he : e ∈ (l.store.saveDay r.day).days) : e.Labelled next' := by
    rcases MemoryStore.mem_saveDay he with rfl | he
    · exact leaves.labelled
    · exact (h.labelled e he).mono (Nat.le_trans takes.le leaves.le)
  have elsewhere {user' goal' date'}
      (hne : ¬ (user' = r.day.user ∧ goal' = r.day.goal ∧ date' = r.day.date)) :
      l.store.entered? user' goal' date' =
        ((l.store.saveDay r.day).findDay user' goal' date').map (·.id) := by
    rw [h.entered, MemoryStore.findDay_saveDay_of_ne]
    rintro ⟨rfl, rfl, rfl⟩
    exact hne ⟨rfl, rfl, rfl⟩
  cases opened with
  | false =>
    refine ⟨fun user' goal' date' => ?_, all⟩
    by_cases key : user' = r.day.user ∧ goal' = r.day.goal ∧ date' = r.day.date
    · obtain ⟨rfl, rfl, rfl⟩ := key
      exact entry.trans (by simp)
    · exact elsewhere key
  | true =>
    have attached := attached_enter (l := ⟨l.store.saveDay r.day, next'⟩) entry
    rw [if_pos rfl]
    refine ⟨fun user' goal' date' => ?_, fun e he => ?_⟩
    · rw [MemoryStore.findDay_congr attached.days, attached.entered?_eq]
      split
      · next key =>
        obtain ⟨rfl, rfl, rfl⟩ := key
        rw [MemoryStore.findDay_saveDay]
        rfl
      · next key => exact elsewhere key
    · rw [attached.days] at he
      exact (all e he).mono attached.le_next

end UsageDiary.Ledger
