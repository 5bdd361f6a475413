import UsageDiary.Proofs.Merge.Step

/-!
# The entries of weeks

The id that the week of a date has for it (`MemoryStore.entered?`). Attaching
a day enters its id for its date and leaves every other entry as it was
(`Attached.entered?_eq`); a day that is entered already is attached without a
change (`Attached.eq_of_entered`).
-/

namespace UsageDiary

theorem Week.lookup_put_of_ne {date date' : Date} (h : date' ≠ date) (id : Id)
    (days : List (Date × Id)) : lookup date' (put date id days) = lookup date' days := by
  induction days with
  | nil => simp [put, lookup, Ne.symm h]
  | cons p rest ih =>
    obtain ⟨e, x⟩ := p
    simp only [put]
    split
    · simp [lookup, Ne.symm h]
    · split
      · next he => simp [lookup, he, Ne.symm h]
      · simp only [lookup, ih]

/-- The entries of days are those put there. -/
theorem Week.mem_put {entry : Date × Id} {date : Date} {id : Id} {days : List (Date × Id)}
    (h : entry ∈ put date id days) : entry = (date, id) ∨ entry ∈ days := by
  induction days with
  | nil => exact .inl (List.mem_singleton.mp h)
  | cons p rest ih =>
    obtain ⟨e, x⟩ := p
    simp only [put] at h
    split at h
    · exact List.mem_cons.mp h
    · split at h
      · exact (List.mem_cons.mp h).imp_right (List.mem_cons_of_mem _)
      · rcases List.mem_cons.mp h with h | h
        · exact .inr (h ▸ List.mem_cons_self)
        · exact (ih h).imp_right (List.mem_cons_of_mem _)

namespace MemoryStore

/-- The id that the week of a date has for it. -/
def entered? (m : MemoryStore) (user goal : Id) (date : Date) : Option Id :=
  (m.findWeek user goal date.weekStart).bind (Week.lookup date ·.days)

variable {m : MemoryStore} {user goal : Id} {date : Date} {week : Week}

theorem entered?_of_findWeek (h : m.findWeek user goal date.weekStart = some week) :
    m.entered? user goal date = Week.lookup date week.days := by
  simp [entered?, h]

theorem entered?_of_findWeek_eq_none (h : m.findWeek user goal date.weekStart = none) :
    m.entered? user goal date = none := by
  simp [entered?, h]

theorem entered?_congr {m' : MemoryStore} (h : m'.weeks = m.weeks) (user goal : Id) (date : Date) :
    m'.entered? user goal date = m.entered? user goal date := by
  unfold entered?
  rw [findWeek_congr h]

@[simp] theorem entered?_saveDay (m : MemoryStore) (d : Day) (user goal : Id) (date : Date) :
    (m.saveDay d).entered? user goal date = m.entered? user goal date := rfl

/-- The entries of a saved week, and those of every other one. -/
theorem entered?_saveWeek (m : MemoryStore) (week : Week) (user goal : Id) (date : Date) :
    (m.saveWeek week).entered? user goal date =
      if week.user = user ∧ week.goal = goal ∧ week.weekStart = date.weekStart then
        Week.lookup date week.days else m.entered? user goal date := by
  split
  · next h =>
    obtain ⟨rfl, rfl, hstart⟩ := h
    exact entered?_of_findWeek (hstart ▸ findWeek_saveWeek m week)
  · next h => simp only [entered?, findWeek_saveWeek_of_ne m week h]

end MemoryStore

namespace Attached

variable {m m' : MemoryStore} {d : Day} {next next' : Nat}

/-- Attaching a day enters its id for its date, and changes no other entry. -/
theorem entered?_eq (h : Attached m d next m' next') (user goal : Id) (date : Date) :
    m'.entered? user goal date = if user = d.user ∧ goal = d.goal ∧ date = d.date then
      some d.id else m.entered? user goal date := by
  by_cases key : user = d.user ∧ goal = d.goal ∧ date = d.date
  · obtain ⟨rfl, rfl, rfl⟩ := key
    rw [if_pos ⟨rfl, rfl, rfl⟩]
    cases h with
    | created => simp [MemoryStore.entered?_saveWeek, Week.lookup]
    | changed h =>
      obtain ⟨user, goal, start⟩ := MemoryStore.key_of_findWeek h
      simp [MemoryStore.entered?_saveWeek, user, goal, start]
    | same h same => exact (MemoryStore.entered?_of_findWeek h).trans same
  · rw [if_neg key]
    cases h with
    | same => rfl
    | created h =>
      rw [MemoryStore.entered?_saveWeek]
      split
      · next week =>
        obtain ⟨rfl, rfl, hstart⟩ := week
        have hne : d.date ≠ date := fun hdate => key ⟨rfl, rfl, hdate.symm⟩
        rw [MemoryStore.entered?_of_findWeek_eq_none (hstart ▸ h)]
        simp [Week.lookup, hne]
      · rfl
    | changed h =>
      obtain ⟨user, goal, start⟩ := MemoryStore.key_of_findWeek h
      rw [MemoryStore.entered?_saveWeek]
      split
      · next week =>
        obtain ⟨rfl, rfl, hstart⟩ := week
        have hne : date ≠ d.date := fun hdate => key ⟨user, goal, hdate⟩
        rw [user, goal, MemoryStore.entered?_of_findWeek (hstart ▸ start ▸ h)]
        exact Week.lookup_put_of_ne hne ..
      · rfl

theorem le_next (h : Attached m d next m' next') : next ≤ next' := by
  cases h with
  | created => exact Nat.le_succ next
  | changed => exact Nat.le_refl next
  | same => exact Nat.le_refl next

/-- A day that is entered for its date is attached without a change. -/
theorem eq_of_entered (h : Attached m d next m' next')
    (entered : m.entered? d.user d.goal d.date = some d.id) : m' = m ∧ next' = next := by
  cases h with
  | created h =>
    rw [MemoryStore.entered?_of_findWeek_eq_none h] at entered
    cases entered
  | changed h other =>
    rw [MemoryStore.entered?_of_findWeek h] at entered
    exact absurd entered other
  | same => exact ⟨rfl, rfl⟩

/-- Attaching a day leaves every other week as it was, and its own too if
that has the day. -/
theorem findWeek_of_ne (h : Attached m d next m' next') {user goal : Id} {start : Date}
    (other : ¬ (user = d.user ∧ goal = d.goal ∧ start = d.date.weekStart ∧
      m.entered? d.user d.goal d.date ≠ some d.id)) :
    m'.findWeek user goal start = m.findWeek user goal start := by
  by_cases entered : m.entered? d.user d.goal d.date = some d.id
  · rw [(h.eq_of_entered entered).1]
  have ne : ¬ (d.user = user ∧ d.goal = goal ∧ d.date.weekStart = start) :=
    fun ⟨hu, hg, hs⟩ => other ⟨hu.symm, hg.symm, hs.symm, entered⟩
  cases h with
  | created => exact MemoryStore.findWeek_saveWeek_of_ne _ _ ne
  | changed found =>
    obtain ⟨huser, hgoal, hstart⟩ := MemoryStore.key_of_findWeek found
    refine MemoryStore.findWeek_saveWeek_of_ne _ _ ?_
    rw [huser, hgoal, hstart]
    exact ne
  | same => rfl

/-- There is one way to attach a day. -/
theorem eq {m'' : MemoryStore} {next'' : Nat} (h : Attached m d next m' next')
    (h' : Attached m d next m'' next'') : m' = m'' ∧ next' = next'' := by
  cases h with
  | created found =>
    cases h' with
    | created => exact ⟨rfl, rfl⟩
    | changed found' => cases found.symm.trans found'
    | same found' => cases found.symm.trans found'
  | changed found other =>
    cases h' with
    | created found' => cases found.symm.trans found'
    | changed found' =>
      cases found.symm.trans found'
      exact ⟨rfl, rfl⟩
    | same found' same =>
      cases found.symm.trans found'
      exact absurd same other
  | same found same =>
    obtain ⟨hm, hnext⟩ := h'.eq_of_entered ((MemoryStore.entered?_of_findWeek found).trans same)
    exact ⟨hm.symm, hnext.symm⟩

end Attached

/-- A day that is entered for its date leaves the weeks as they are. -/
theorem Finished.eq_of_entered {attaches late : Bool} {d : Day} {v v' : Scope}
    (h : Finished attaches late d v v') (entered : v.store.entered? d.user d.goal d.date = some d.id) :
    v'.store = v.store ∧ v'.nextId = v.nextId := by
  cases h with
  | skipped => exact ⟨rfl, rfl⟩
  | attached _ attached => exact attached.eq_of_entered entered

theorem Finished.findWeek_of_ne {attaches late : Bool} {d : Day} {v v' : Scope}
    (h : Finished attaches late d v v') {user goal : Id} {start : Date}
    (other : ¬ (user = d.user ∧ goal = d.goal ∧ start = d.date.weekStart ∧
      v.store.entered? d.user d.goal d.date ≠ some d.id)) :
    v'.store.findWeek user goal start = v.store.findWeek user goal start := by
  cases h with
  | skipped => rfl
  | attached _ attached => exact attached.findWeek_of_ne other

end UsageDiary
