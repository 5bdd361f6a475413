import UsageDiary.Proofs.Merge.Step

/-!
# What a merge does to days and slots

Seen from the days of the store and the slot of the user and goal, a merge
leaves things as they are, up to looking up the last day, or records its
event in one day (`Moved`, `Ending.moved`).

Where the cached day is the stored one of its date, recording an event puts
the changed day in its place in the store (`Recorded.findDay_self`) and
leaves every other day as it was (`Recorded.findDay_of_ne`).
-/

namespace UsageDiary

theorem MemoryStore.findDay_congr {m m' : MemoryStore} (h : m'.days = m.days) (user goal : Id)
    (date : Date) : m'.findDay user goal date = m.findDay user goal date := by
  unfold findDay
  rw [h]

@[simp] theorem Scope.load_loaded (v : Scope) (user goal : Id) :
    (v.load user goal).slot.loaded = true := by
  unfold load
  dsimp only
  split
  · assumption
  · rfl

theorem Attached.days {m m' : MemoryStore} {d : Day} {next next' : Nat}
    (h : Attached m d next m' next') : m'.days = m.days := by
  cases h <;> rfl

namespace Finished

variable {attaches late : Bool} {d : Day} {v v' : Scope}

theorem days (h : Finished attaches late d v v') : v'.store.days = v.store.days := by
  cases h with
  | skipped => rfl
  | attached _ attached => exact attached.days

theorem slot (h : Finished attaches late d v v') :
    v'.slot.day = v.slot.day ∧ v'.slot.loaded = v.slot.loaded := by
  cases h with
  | skipped => exact ⟨rfl, rfl⟩
  | attached => cases late <;> exact ⟨rfl, rfl⟩

/-- A late event leaves the slot alone. -/
theorem slot_of_late (h : Finished attaches late d v v') (hlate : late = true) : v'.slot = v.slot := by
  cases h with
  | skipped => rfl
  | attached => exact if_pos hlate

end Finished

section Moved

variable (s : Settings) (user : User) (goal : Id) (e : UsageEvent)

/-- What a merge does to the days of the store and to its slot, weeks and
marks apart. -/
inductive Moved (v v' : Scope) : Prop where
  | stayed (days : v'.store.days = v.store.days)
      (slot : v'.slot = v.slot ∨ v'.slot = (v.load user.id goal).slot) : Moved v v'
  | recorded {p : Placement} {d : Day} {opened : Bool} {next : Nat} {r : Merged} {v₁ : Scope}
      (recorded : Recorded s user goal e (v.load user.id goal) p d opened next r v₁)
      (days : v'.store.days = v₁.store.days)
      (slot : v'.slot.day = v₁.slot.day ∧ v'.slot.loaded = v₁.slot.loaded) : Moved v v'

end Moved

variable {s : Settings} {user : User} {goal : Id} {e : UsageEvent}

theorem Ending.moved {w w' : World} {v : Scope} {result : Except Stop Merged}
    (h : Ending s user goal e w v result w') :
    ∃ v', Moved s user goal e v v' ∧ w.At user.id goal v' w' := by
  cases h with
  | unloaded _ h => exact ⟨v, .stayed rfl (.inl rfl), h⟩
  | unrecorded _ h =>
    refine ⟨_, ?_, h⟩
    exact .stayed rfl (.inr rfl)
  | unattached recorded _ h =>
    refine ⟨_, ?_, h⟩
    exact .recorded recorded rfl ⟨rfl, rfl⟩
  | merged recorded finished h => exact ⟨_, .recorded recorded finished.days finished.slot, h⟩

/-! ## The day that is recorded in -/

/-- The cached day is the stored one of its date. -/
def Slot.Coherent (m : MemoryStore) (user goal : Id) (slot : Slot) : Prop :=
  ∀ c, slot.day = some c → m.findDay user goal c.date = some c

/-- A day that an instant is placed in is the cached one or stored. -/
theorem Placed.source {m : MemoryStore} {t : Instant} {cached : Option Day} {p : Placement} {d : Day}
    (placed : Placed m user goal t cached p) (h : p.lookup.day? = some d) :
    cached = some d ∨ m.findDay user.id goal d.date = some d := by
  cases placed with
  | empty => cases h
  | current => cases h; exact .inl rfl
  | following => cases h
  | followingCached => cases h
  | preceding _ sought =>
    cases sought with
    | found _ _ holds _ => cases h; exact .inr holds
    | free => cases h

theorem Placed.holds {m : MemoryStore} {t : Instant} {cached : Option Day} {p : Placement} {d : Day}
    (placed : Placed m user goal t cached p)
    (coherent : ∀ c, cached = some c → m.findDay user.id goal c.date = some c)
    (h : p.lookup.day? = some d) : m.findDay user.id goal d.date = some d :=
  (placed.source h).elim (coherent d) fun holds => holds

/-- The cached day is one of the user and goal. -/
def Slot.Own (user goal : Id) (slot : Slot) : Prop :=
  ∀ c, slot.day = some c → c.user = user ∧ c.goal = goal

theorem Slot.Coherent.own {m : MemoryStore} {user goal : Id} {slot : Slot}
    (h : slot.Coherent m user goal) : slot.Own user goal := fun c hc =>
  have key := MemoryStore.key_of_findDay (h c hc)
  ⟨key.1, key.2.1⟩

/-- Looking up the last day keeps the cached day one of the user and goal. -/
theorem Scope.load_own {user goal : Id} {v : Scope} (own : v.slot.Own user goal) :
    (v.load user goal).slot.Own user goal := by
  unfold load
  dsimp only
  split
  · exact own
  · intro c hc
    have last := MemoryStore.isLast_findLast v.store user goal
    rw [show v.store.findLast user goal = some c from hc] at last
    have key := MemoryStore.key_of_findDay last.1
    exact ⟨key.1, key.2.1⟩

/-- A day that an instant is placed in is one of the user and goal. -/
theorem Placed.key {m : MemoryStore} {t : Instant} {slot : Slot} {p : Placement} {d : Day}
    (placed : Placed m user goal t slot.day p) (own : slot.Own user.id goal)
    (h : p.lookup.day? = some d) : d.user = user.id ∧ d.goal = goal := by
  rcases placed.source h with cached | holds
  · exact own d cached
  · have key := MemoryStore.key_of_findDay holds
    exact ⟨key.1, key.2.1⟩

/-- A day that is opened for a user and goal is theirs. -/
theorem Taken.key {user goal : Id} {p : Placement} {d : Day} {opened : Bool} {next next' : Nat}
    (h : Taken user goal p next d opened next')
    (own : ∀ d, p.lookup.day? = some d → d.user = user ∧ d.goal = goal) : d.user = user ∧ d.goal = goal := by
  cases h with
  | kept hd => exact own d hd
  | opened _ opens =>
    rw [(Day.create_eq_ok opens).2.2]
    exact ⟨rfl, rfl⟩

/-- A day that an instant is placed in covers it. -/
theorem Placed.covers {m : MemoryStore} {t : Instant} {cached : Option Day} {p : Placement} {d : Day}
    (placed : Placed m user goal t cached p) (h : p.lookup.day? = some d) : d.covers t = true := by
  cases placed with
  | empty => cases h
  | current covers => cases h; exact covers
  | following => cases h
  | followingCached => cases h
  | preceding _ sought =>
    cases sought with
    | found _ _ _ covers => cases h; exact covers
    | free => cases h

namespace Recorded

variable {v v' : Scope} {p : Placement} {d : Day} {opened : Bool} {next : Nat} {r : Merged}

/-- A day that was not opened for the event is stored. -/
theorem holds_of_kept (h : Recorded s user goal e v p d false next r v')
    (coherent : v.slot.Coherent v.store user.id goal) :
    v.store.findDay user.id goal d.date = some d := by
  cases h.taken with
  | kept hd => exact h.placed.holds coherent hd

theorem opens (h : Recorded s user goal e v p d true next r v') :
    p.lookup.day? = none ∧ Day.create ⟨v.nextId⟩ user.id goal p.zone p.date = .ok d := by
  cases h.taken with
  | opened hnone opens => exact ⟨hnone, opens⟩

/-- Where a late event goes: a zone that the search tries shows the date of
the day, which is stored and covers the event, or was opened at a free date. -/
theorem sought (h : Recorded s user goal e v p d opened next r v') {c : Day}
    (cached : v.slot.day = some c) (late : p.lookup.isLate = true) :
    e.starts < c.starts ∧
      ∃ z, Tries v.store user.id goal e.starts (Work.firstZones user.zone c.zone) z ∧
        z.localDate? e.starts = some d.date ∧
        v.store.findDay user.id goal d.date = (if opened then none else some d) ∧
        (opened = false → d.covers e.starts = true) ∧
        (opened = true → ∃ date, c.zone.localDate? e.starts = some date) := by
  have placed := h.placed
  rw [cached] at placed
  cases placed with
  | current => cases late
  | following => cases late
  | followingCached => cases late
  | preceding before sought =>
    refine ⟨before, ?_⟩
    cases sought with
    | found tries shows holds covers =>
      cases h.taken with
      | kept hd => cases hd; exact ⟨_, tries, shows, holds, fun _ => covers, nofun⟩
      | opened hnone => cases hnone
    | free tries shows holds dated =>
      cases h.taken with
      | kept hd => cases hd
      | opened _ opens =>
        rw [(Day.create_eq_ok opens).2.2]
        exact ⟨_, tries, shows, holds, nofun, fun _ => dated c.zone (by simp)⟩

theorem le (h : Recorded s user goal e v p d opened next r v') : v.nextId ≤ v'.nextId :=
  Nat.le_trans h.taken.le h.applied.le

/-- The day that takes an event is one of the user and goal. -/
theorem key_of_own (h : Recorded s user goal e v p d opened next r v') (own : v.slot.Own user.id goal) :
    d.user = user.id ∧ d.goal = goal := h.taken.key fun _ => h.placed.key own

theorem key (h : Recorded s user goal e v p d opened next r v')
    (coherent : v.slot.Coherent v.store user.id goal) : d.user = user.id ∧ d.goal = goal :=
  h.key_of_own coherent.own

theorem day_key (h : Recorded s user goal e v p d opened next r v') (own : v.slot.Own user.id goal) :
    r.day.user = user.id ∧ r.day.goal = goal :=
  have key := h.key_of_own own
  ⟨h.applied.grows.user.trans key.1, h.applied.grows.goal.trans key.2⟩

theorem weeks (h : Recorded s user goal e v p d opened next r v') : v'.store.weeks = v.store.weeks := by
  rw [h.store]
  split <;> rfl

/-- The changed day stands in the store, saved or as it was. -/
theorem findDay_self (h : Recorded s user goal e v p d opened next r v')
    (coherent : v.slot.Coherent v.store user.id goal) :
    v'.store.findDay user.id goal d.date = some r.day := by
  obtain ⟨huser, hgoal⟩ := h.key coherent
  have grows := h.applied.grows
  cases hr : r.outcome.isPersisted with
  | true =>
    rw [h.store, hr, if_pos rfl, ← huser, ← hgoal, ← grows.user, ← grows.goal, ← grows.date]
    exact MemoryStore.findDay_saveDay _ _
  | false =>
    cases opened with
    | false =>
      rw [h.store, hr, h.applied.day_of_not_persisted hr]
      exact h.holds_of_kept coherent
    | true =>
      rw [h.applied.isPersisted_of_nil h.taken.nil_of_opened] at hr
      cases hr

/-- Every other day stays as it was. -/
theorem findDay_of_ne (h : Recorded s user goal e v p d opened next r v')
    (coherent : v.slot.Coherent v.store user.id goal) {user' goal' : Id} {date : Date}
    (hne : ¬ (user' = user.id ∧ goal' = goal ∧ date = d.date)) :
    v'.store.findDay user' goal' date = v.store.findDay user' goal' date := by
  obtain ⟨huser, hgoal⟩ := h.key coherent
  have grows := h.applied.grows
  rw [h.store]
  split
  · refine MemoryStore.findDay_saveDay_of_ne _ _ fun ⟨hu, hg, hd⟩ => hne ?_
    rw [grows.user] at hu
    rw [grows.goal] at hg
    rw [grows.date] at hd
    exact ⟨hu ▸ huser, hg ▸ hgoal, hd.symm⟩
  · rfl

end Recorded

/-- A recorded day is one of the user and goal. -/
theorem Work.recordEvent_key {base w : World} {v : Scope} (h : base.At user.id goal v w)
    (own : v.slot.Own user.id goal) :
    WP (recordEvent s v.slot user goal e) w
      (fun recorded _ => recorded.2.day.user = user.id ∧ recorded.2.day.goal = goal) fun _ _ => True := by
  refine (recordEvent_ok h).mono (fun (p, r) w' ⟨d, opened, next, v', recorded, _⟩ => ?_) fun _ _ _ => trivial
  exact recorded.day_key own

end UsageDiary
