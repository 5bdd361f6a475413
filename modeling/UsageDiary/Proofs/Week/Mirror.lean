import UsageDiary.Proofs.Merge.Atomic
import UsageDiary.Proofs.Week.Tiles

/-!
# Weeks have the ids of stored days

Every entry of a stored week is the id of the stored day of its date, which
lies in the week (`Week.Reflects`), and the day that a merge answers with is
entered in its week (`weeks_mirror_days`), whichever store calls failed
before.

Attaching is left out for a cached day without a mark. It may be, because
such a day is entered already (`Slot.Settled`): the mark is set when a day
is looked up or opened, and taken off when it was attached.
-/

namespace UsageDiary

/-! ## Weeks -/

/-- The entries of a week are those of stored days whose dates lie in it. -/
structure Week.Reflects (m : MemoryStore) (week : Week) : Prop where
  dated : ∀ {date id}, (date, id) ∈ week.days → date.weekStart = week.weekStart
  stored : ∀ {date id}, (date, id) ∈ week.days →
    ∃ d, m.findDay week.user week.goal date = some d ∧ d.id = id

/-- The entries of all stored weeks are those of stored days. -/
def MemoryStore.Reflected (m : MemoryStore) : Prop := ∀ week ∈ m.weeks, week.Reflects m

section Weeks

variable {m m' : MemoryStore} {d : Day} {week : Week} {next next' : Nat}

/-- Weeks stay as they are while days grow. -/
theorem MemoryStore.Reflected.of_grows (h : m.Reflected) (weeks : m'.weeks = m.weeks)
    (grows : ∀ {user goal date old}, m.findDay user goal date = some old →
      ∃ new, m'.findDay user goal date = some new ∧ old.Grows new) : m'.Reflected := by
  intro week hweek
  have reflects := h week (weeks ▸ hweek)
  refine ⟨reflects.dated, fun entry => ?_⟩
  obtain ⟨old, hold, hid⟩ := reflects.stored entry
  obtain ⟨new, hnew, grown⟩ := grows hold
  exact ⟨new, hnew, grown.id.trans hid⟩

/-- A stored day may be entered in its week. -/
theorem Week.Reflects.put (h : week.Reflects m) (user : week.user = d.user) (goal : week.goal = d.goal)
    (start : week.weekStart = d.date.weekStart) (stored : m.findDay d.user d.goal d.date = some d) :
    Reflects m { week with days := Week.put d.date d.id week.days } where
  dated entry := by
    rcases Week.mem_put entry with same | entry
    · cases same
      exact start.symm
    · exact h.dated entry
  stored entry := by
    rcases Week.mem_put entry with same | entry
    · cases same
      exact ⟨d, by rw [user, goal, stored], rfl⟩
    · exact h.stored entry

theorem MemoryStore.Reflected.saveWeek (h : m.Reflected) (reflects : week.Reflects m) :
    (m.saveWeek week).Reflected := by
  -- Saving a week leaves the days as they are, which is all that is asked of the store.
  have same {x : Week} (hx : x.Reflects m) : x.Reflects (m.saveWeek week) := ⟨hx.dated, hx.stored⟩
  intro x hx
  rcases MemoryStore.mem_saveWeek hx with rfl | hx
  · exact same reflects
  · exact same (h x hx)

theorem Attached.reflected (h : Attached m d next m' next') (reflected : m.Reflected)
    (stored : m.findDay d.user d.goal d.date = some d) : m'.Reflected := by
  cases h with
  | created =>
    have empty : (Week.create ⟨next⟩ d.user d.goal d.date.weekStart d.zone).Reflects m :=
      ⟨nofun, nofun⟩
    exact reflected.saveWeek (empty.put rfl rfl rfl stored)
  | changed h =>
    obtain ⟨user, goal, start⟩ := MemoryStore.key_of_findWeek h
    have reflects := reflected _ (MemoryStore.mem_of_findWeek h)
    exact reflected.saveWeek (reflects.put user goal start stored)
  | same => exact reflected

end Weeks

/-! ## The mark of a cached day -/

/-- A cached day that is not marked is entered in its week. -/
def Slot.Settled (m : MemoryStore) (user goal : Id) (slot : Slot) : Prop :=
  ∀ c, slot.day = some c → slot.weekPending = false → m.entered? user goal c.date = some c.id

/-- A day that is looked up is marked. -/
theorem Scope.load_settled {v : Scope} {user goal : Id} (settled : v.slot.Settled v.store user goal) :
    (v.load user goal).slot.Settled v.store user goal := by
  unfold load
  dsimp only
  split
  · exact settled
  · intro c (hc : v.store.findLast user goal = some c) (unmarked : (v.store.findLast user goal).isSome = false)
    rw [hc] at unmarked
    cases unmarked

/-- What a merge leaves to its weeks and its slot, and to the weeks of other
users and goals. -/
structure Settles (user goal : Id) (v v' : Scope) : Prop where
  reflected : v'.store.Reflected
  settled : v'.slot.Settled v'.store user goal
  others : ∀ {user' goal'}, (user', goal') ≠ (user, goal) →
    ∀ date, v'.store.entered? user' goal' date = v.store.entered? user' goal' date

section Settles

variable {s : Settings} {user : User} {goal : Id} {e : UsageEvent} {v v' v'' : Scope} {p : Placement}
  {d : Day} {opened : Bool} {next : Nat} {r : Merged} {zones : List Zone}

theorem Lookup.isLate_of_not_attaches {lookup : Lookup} {slot : Slot}
    (skips : lookup.attaches slot = false) : lookup.isLate = false := by
  cases lookup with
  | preceding => cases skips
  | _ => rfl

/-- A day that need not be attached is entered. -/
theorem Recorded.entered_of_skips (h : Recorded s user goal e v p d opened next r v')
    (settled : v.slot.Settled v.store user.id goal) (skips : p.lookup.attaches v.slot = false) :
    v'.store.entered? user.id goal r.day.date = some r.day.id := by
  cases opened with
  | false =>
    obtain ⟨cached, current⟩ := h.cached_of_kept (Lookup.isLate_of_not_attaches skips)
    rw [current] at skips
    rw [MemoryStore.entered?_congr h.weeks, h.applied.grows.date, h.applied.grows.id]
    exact settled d cached skips
  | true =>
    rw [Lookup.attaches_of_day? h.opens.1] at skips
    cases skips

/-- The entries after a merge: that of its day, and the others as they were. -/
theorem Recorded.entered?_eq (h : Recorded s user goal e v p d opened next r v')
    (finished : Finished (p.lookup.attaches v.slot) p.lookup.isLate r.day v' v'')
    (coherent : v.slot.Coherent v.store user.id goal) (settled : v.slot.Settled v.store user.id goal)
    (user' goal' : Id) (date : Date) : v''.store.entered? user' goal' date =
      if user' = user.id ∧ goal' = goal ∧ date = r.day.date then some r.day.id
      else v.store.entered? user' goal' date := by
  cases finished with
  | skipped skips =>
    split
    · next key =>
      rw [key.1, key.2.1, key.2.2]
      exact h.entered_of_skips settled skips
    · exact MemoryStore.entered?_congr h.weeks ..
  | attached _ attached =>
    obtain ⟨huser, hgoal⟩ := h.day_key coherent.own
    rw [attached.entered?_eq, huser, hgoal, MemoryStore.entered?_congr h.weeks]

/-- A recorded day is stored, and the weeks are as they were. -/
theorem Recorded.settles_unattached (h : Recorded s user goal e v p d opened next r v')
    (compatible : Compatible zones) (days : v.store.DaysIn zones user.id goal)
    (last : v.store.IsLast user.id goal v.slot.day) (coherent : v.slot.Coherent v.store user.id goal)
    (numbered : v.store.Numbered v.nextId) (reflected : v.store.Reflected)
    (settled : v.slot.Settled v.store user.id goal) (attaches : p.lookup.attaches v.slot = true) :
    Settles user.id goal v v' where
  reflected := reflected.of_grows h.weeks (h.grows compatible days last coherent)
  settled := by
    intro c cached unmarked
    rw [MemoryStore.entered?_congr h.weeks]
    cases late : p.lookup.isLate with
    | true =>
      rw [h.slot, if_pos late] at cached unmarked
      exact settled c cached unmarked
    | false =>
      rw [h.slot_of_attaches coherent numbered late attaches] at unmarked
      cases unmarked
  others _ _ := MemoryStore.entered?_congr h.weeks ..

theorem Recorded.settles (h : Recorded s user goal e v p d opened next r v')
    (finished : Finished (p.lookup.attaches v.slot) p.lookup.isLate r.day v' v'')
    (compatible : Compatible zones) (days : v.store.DaysIn zones user.id goal)
    (last : v.store.IsLast user.id goal v.slot.day) (coherent : v.slot.Coherent v.store user.id goal)
    (reflected : v.store.Reflected) (settled : v.slot.Settled v.store user.id goal) :
    Settles user.id goal v v'' := by
  have entries := h.entered?_eq finished coherent settled
  have reflected' := reflected.of_grows h.weeks (h.grows compatible days last coherent)
  have grows := h.applied.grows
  refine ⟨?_, fun c cached unmarked => ?_, fun hne date => ?_⟩
  · cases finished with
    | skipped => exact reflected'
    | attached _ attached =>
      refine attached.reflected reflected' ?_
      rw [grows.user, grows.goal, grows.date, (h.key coherent).1, (h.key coherent).2]
      exact h.findDay_self coherent
  · rw [entries]
    cases late : p.lookup.isLate with
    | true =>
      rw [finished.slot_of_late late, h.slot, if_pos late] at cached unmarked
      -- The late event is in a day of another date than the cached one.
      have hne : c.date ≠ r.day.date := grows.date ▸ h.date_ne coherent cached late
      rw [if_neg fun same => hne same.2.2]
      exact settled c cached unmarked
    | false =>
      rw [finished.slot.1, h.slot, if_neg (by simp [late])] at cached
      cases cached
      exact if_pos ⟨rfl, rfl, rfl⟩
  · rw [entries, if_neg]
    rintro ⟨rfl, rfl, -⟩
    exact hne rfl

/-- However a merge ends, the weeks stay those of the days, and unmarked
cached days entered. -/
theorem Ending.settles {w w' : World} {result : Except Stop Merged}
    (h : Ending s user goal e w v result w') (compatible : Compatible zones)
    (days : v.store.DaysIn zones user.id goal) (latest : v.slot.Latest v.store user.id goal)
    (numbered : v.store.Numbered v.nextId) (reflected : v.store.Reflected)
    (settled : v.slot.Settled v.store user.id goal) :
    ∃ v', w.At user.id goal v' w' ∧ Settles user.id goal v v' := by
  have last := Scope.load_isLast latest
  have coherent := Scope.load_coherent latest.coherent
  have loaded := Scope.load_settled settled
  cases h with
  | unloaded _ h => exact ⟨v, h, reflected, settled, fun _ _ => rfl⟩
  | unrecorded _ h => exact ⟨_, h, reflected, loaded, fun _ _ => rfl⟩
  | unattached recorded _ h _ refused =>
    obtain ⟨reflected, settled, others⟩ := recorded.settles_unattached compatible days last coherent
      numbered reflected loaded refused.attaches
    exact ⟨_, h, reflected, settled, others⟩
  | merged recorded finished h =>
    obtain ⟨reflected, settled, others⟩ := recorded.settles finished compatible days last coherent
      reflected loaded
    exact ⟨_, h, reflected, settled, others⟩

end Settles

/-! ## Runs -/

namespace World

/-- The weeks have the ids of the stored days, and every cached day without
a mark is entered in its week. -/
def Settled (w : World) : Prop :=
  ∃ m, w.store = .memory m ∧ m.Reflected ∧
    ∀ user goal, (w.cache.slot user goal).Settled m user goal

variable {s : Settings} {zones : Id → List Zone} {w : World}

theorem Settled.next (h : w.Settled) (orderly : w.Orderly zones) (numbered : w.Numbered)
    (compatible : ∀ user, Compatible (zones user)) (a : Act) : (a.next s w).Settled := by
  obtain ⟨m, hm, reflected, settled⟩ := h
  cases a with
  | merge user goal e =>
    obtain ⟨days, latest⟩ := orderly.of_memory hm user.id goal
    obtain ⟨v', at', h⟩ := (Work.merge_ending s user goal e hm).settles (compatible user.id) days latest
      (numbered.of_memory hm) reflected (settled user.id goal)
    refine ⟨v'.store, at'.store, h.reflected, fun user' goal' => ?_⟩
    by_cases key : (user', goal') = (user.id, goal)
    · cases key
      rw [Act.next, at'.slot]
      exact h.settled
    · rw [Act.next, at'.others key]
      intro c cached unmarked
      rw [h.others key]
      exact settled user' goal' c cached unmarked
  | invalidate user =>
    refine ⟨m, hm, reflected, fun user' goal' => ?_⟩
    change ((w.cache.invalidate user).2.slot user' goal').Settled m user' goal'
    rw [Cache.slot_invalidate]
    split
    · exact fun _ cached => by cases cached
    · exact settled user' goal'
  | restart => exact ⟨m, hm, reflected, fun _ _ _ cached => by cases cached⟩
  | outages os => exact ⟨m, hm, reflected, settled⟩

theorem settled_fresh (now : Instant) (nextId : Nat) : (fresh now nextId).Settled := by
  refine ⟨{}, rfl, fun week hweek => ?_, fun user goal c hc => ?_⟩
  · cases hweek
  · cases hc

theorem settled_after (compatible : ∀ user, Compatible (zones user)) (now : Instant) (nextId : Nat)
    {acts : List Act} (uses : ∀ a ∈ acts, a.Uses zones) :
    ((fresh now nextId).after s acts).Orderly zones ∧ ((fresh now nextId).after s acts).Settled := by
  have run : ((fresh now nextId).after s acts).Orderly zones ∧
      ((fresh now nextId).after s acts).Numbered ∧ ((fresh now nextId).after s acts).Settled :=
    after_induction (fun w => w.Orderly zones ∧ w.Numbered ∧ w.Settled)
      ⟨orderly_fresh zones now nextId, numbered_fresh now nextId, settled_fresh now nextId⟩
      fun a ha _ ⟨orderly, numbered, settled⟩ => ⟨orderly.next compatible (uses a ha),
        numbered.next orderly.coherent a, settled.next orderly numbered compatible a⟩
  exact ⟨run.1, run.2.2⟩

end World

/-- However users' zones change and store calls fail: the entries of a
stored week lie in the seven days from its first date, which is a Sunday
where the calendar has it, and are the ids of the stored days of their
dates. A merge that ends well leaves its day entered in its week. -/
theorem weeks_mirror_days (zones : Id → List Zone) (compatible : ∀ user, Compatible (zones user))
    (s : Settings) (now : Instant) (nextId : Nat) {acts : List Act} (uses : ∀ a ∈ acts, a.Uses zones) :
    let w := (World.fresh now nextId).after s acts
    (∃ m, w.store = .memory m ∧ ∀ week ∈ m.weeks, ∀ date id, (date, id) ∈ week.days →
      week.weekStart ≤ date ∧ date.day < week.weekStart.day + 7 ∧
      ((date.addDays? (-date.weekday)).isSome = true → week.weekStart.weekday = 0) ∧
      ∃ d, m.findDay week.user week.goal date = some d ∧ d.id = id) ∧
    ∀ user goal e r w', (Work.merge s user goal e).exec w = (.ok r, w') →
      ∃ week, (w'.store.findWeek user.id goal r.day.date.weekStart).result = .ok (some week) ∧
        Week.lookup r.day.date week.days = some r.day.id := by
  intro w
  obtain ⟨orderly, m, hm, reflected, settled⟩ :=
    World.settled_after (s := s) compatible now nextId uses
  refine ⟨⟨m, hm, fun week hweek date id entry => ?_⟩, fun user goal e r w' merged => ?_⟩
  · have reflects := reflected week hweek
    rw [← reflects.dated entry]
    exact ⟨date.weekStart_le, date.lt_weekStart_add, Date.weekday_weekStart, reflects.stored entry⟩
  · have coherent := orderly.coherent.of_memory hm
    have ending := Work.merge_ending s user goal e hm
    rw [merged] at ending
    cases ending with
    | merged recorded finished at' =>
      have entered := recorded.entered?_eq finished (Scope.load_coherent (coherent user.id goal))
        (Scope.load_settled (settled user.id goal)) user.id goal r.day.date
      rw [if_pos ⟨rfl, rfl, rfl⟩] at entered
      obtain ⟨week, found, entry⟩ := Option.bind_eq_some_iff.mp entered
      rw [at'.store]
      exact ⟨week, congrArg Except.ok found, entry⟩

/-- A service that saved a day but not its week. -/
def Sample.unattached : List Act :=
  [.outages [⟨.saveWeek, 0, 1, .database, []⟩],
    .merge (Sample.user .utc) Sample.goal (Sample.event 600)]

/-- When the event comes again, its day is entered. -/
theorem Sample.attached_again : ∃ r w', (Work.merge {} (Sample.user .utc) Sample.goal
      (Sample.event 600)).exec ((World.fresh .epoch 0).after {} Sample.unattached) = (.ok r, w') ∧
    ∃ week, (w'.store.findWeek ⟨1⟩ ⟨3⟩ r.day.date.weekStart).result = .ok (some week) ∧
      Week.lookup r.day.date week.days = some r.day.id := by
  have absorbed : ((Work.merge {} (Sample.user .utc) Sample.goal (Sample.event 600)).exec
      ((World.fresh .epoch 0).after {} Sample.unattached)).1.toOption.map (·.outcome.word) =
        some "absorbed" := by decide +kernel
  rcases exec : (Work.merge {} (Sample.user .utc) Sample.goal (Sample.event 600)).exec
      ((World.fresh .epoch 0).after {} Sample.unattached) with ⟨stop | r, w'⟩
  · rw [exec] at absorbed
    cases absorbed
  · exact ⟨r, w', rfl, (weeks_mirror_days (fun _ => [.utc, .east14]) (fun _ => compatible_utc_east14)
      {} .epoch 0 (by simp [Sample.unattached, Act.Uses, Sample.user])).2 _ _ _ _ _ exec⟩

end UsageDiary
