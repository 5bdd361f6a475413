import UsageDiary.Proofs.Merge.Recording

/-!
# What a merge does

Every way a merge may end, for a store in memory (`Ending`, `merge_ending`):
before the last day could be looked up, before the day was saved, with the
day saved but its week not, or with both done. Each says what became of the
store, the slot and the next id. A store call fails only if there were
outages, and the other reasons to stop are those of `Unrecorded`.

Once the slot is known, a merge has two parts (`merge_eq`): it records the
event, which takes no notice of the slot but for its day, and then caches
and attaches the day.
-/

namespace UsageDiary

/-! ## Weeks -/

section Attached

variable (m : MemoryStore) (d : Day) (next : Nat)

/-- A day is attached to its week: to one that is created for it, or to one
that is stored and changed only if the date bore another id. -/
inductive Attached : MemoryStore → Nat → Prop where
  | created (h : m.findWeek d.user d.goal d.date.weekStart = none) :
      Attached (m.saveWeek ⟨⟨next⟩, d.user, d.goal, d.date.weekStart, d.zone, [(d.date, d.id)]⟩)
        (next + 1)
  | changed {week : Week} (h : m.findWeek d.user d.goal d.date.weekStart = some week)
      (other : Week.lookup d.date week.days ≠ some d.id) :
      Attached (m.saveWeek { week with days := Week.put d.date d.id week.days }) next
  | same {week : Week} (h : m.findWeek d.user d.goal d.date.weekStart = some week)
      (same : Week.lookup d.date week.days = some d.id) : Attached m next

end Attached

/-- A date that is not the last of the calendar lies in its week. -/
theorem Week.covers_of_lt_last {week : Week} {date : Date} (h : week.weekStart = date.weekStart)
    (last : date < Date.last) : week.covers date = true := by
  unfold Week.covers Week.weekEnd
  rw [h]
  have hle := date.weekStart_le
  have hlt := date.lt_weekStart_add
  cases hadd : date.weekStart.addDays? 7 with
  | none => simpa [hle] using last
  | some e =>
    have := Date.day_of_ofDay? hadd
    have hdate : date < e := by rw [Date.lt_def]; omega
    simpa [hle] using hdate

theorem Week.attach_eq {week : Week} {d : Day} (user : week.user = d.user)
    (goal : week.goal = d.goal) : week.attach d =
      if week.covers d.date then
        .ok (lookup d.date week.days ≠ some d.id, { week with days := put d.date d.id week.days })
      else .error (.outsideWeek d.date week.weekStart) := by
  unfold attach
  cases week.covers d.date <;> simp [user, goal]

namespace Work

variable {base w : World} {user goal user' goal' : Id} {v : Scope} {d : Day}

/-- A day is attached once its week was found or created. -/
def attachTo (isNew : Bool) (week : Week) (d : Day) : Work Week := do
  let (attached, week) ← respecting (week.attach d)
  if isNew || attached then
    saveWeek week
    report (weekUpdated d.date.weekStart isNew)
  return week

/-- A week that a day belongs to is saved with it if it is new or changed. -/
theorem attachTo_ok {week : Week} (isNew : Bool) (user : week.user = d.user)
    (goal : week.goal = d.goal) (start : week.weekStart = d.date.weekStart)
    (h : base.At user' goal' v w) :
    WP (attachTo isNew week d) w
      (fun _ w' => base.At user' goal'
        { v with store := if isNew || Week.lookup d.date week.days ≠ some d.id then
            v.store.saveWeek { week with days := Week.put d.date d.id week.days } else v.store } w')
      fun stop w' => (base.Failing stop ∨ Date.last ≤ d.date) ∧ base.At user' goal' v w' := by
  unfold attachTo
  rw [Week.attach_eq user goal]
  refine (respecting_ok _ w).bind (fun r w₁ ⟨hr, same⟩ => ?_)
    fun stop w₁ ⟨⟨broken, hr, _⟩, logged⟩ => ?_
  · subst same
    split at hr
    · cases hr
      refine WP.ite (fun changed => ?_) fun unchanged => ?_
      · refine (saveWeek_ok _ h).bind (fun _ w₂ h₂ => ?_)
          fun stop w₂ ⟨hstop, h₂⟩ => ⟨.inl hstop, h₂⟩
        refine (report_ok _ h₂).bind (fun _ w₃ h₃ => ?_) fun _ _ => False.elim
        rw [if_pos changed]
        exact WP.pure h₃
      · rw [if_neg unchanged]
        exact WP.pure h
    · cases hr
  · refine ⟨.inr (le_of_not_gt fun last => ?_), h.logged logged⟩
    rw [Week.covers_of_lt_last start last] at hr
    cases hr

/-- Attaching saves a week or leaves the store as it was. -/
theorem attachDay_ok (h : base.At user' goal' v w) :
    WP (attachDay d) w
      (fun _ w' => ∃ m next, Attached v.store d v.nextId m next ∧
        base.At user' goal' { v with store := m, nextId := next } w')
      fun stop w' => (base.Failing stop ∨ Date.last ≤ d.date) ∧
        ∃ next, v.nextId ≤ next ∧ base.At user' goal' { v with nextId := next } w' := by
  unfold attachDay
  refine (findWeek_ok _ _ _ h).bind (fun found w₁ ⟨hfound, h₁⟩ => ?_)
    fun stop w₁ ⟨hstop, h₁⟩ => ⟨.inl hstop, v.nextId, Nat.le_refl _, h₁⟩
  cases found with
  | none =>
    refine (freshId_ok h₁).bind (fun id w₂ ⟨hid, h₂⟩ => ?_) fun _ _ => False.elim
    rw [hid]
    refine (attachTo_ok true rfl rfl rfl h₂).mono (fun _ w₃ h₃ => ?_)
      fun stop w₃ ⟨why, h₃⟩ => ⟨why, v.nextId + 1, Nat.le_succ _, h₃⟩
    exact ⟨_, _, .created hfound.symm, h₃⟩
  | some week =>
    obtain ⟨user, goal, start⟩ := MemoryStore.key_of_findWeek hfound.symm
    refine (attachTo_ok false user goal start h₁).mono (fun _ w₂ h₂ => ?_)
      fun stop w₂ ⟨why, h₂⟩ => ⟨why, v.nextId, Nat.le_refl _, h₂⟩
    by_cases same : Week.lookup d.date week.days = some d.id
    · rw [if_neg (by simp [same])] at h₂
      exact ⟨_, _, .same hfound.symm same, h₂⟩
    · rw [if_pos (by simp [same])] at h₂
      exact ⟨_, _, .changed hfound.symm same, h₂⟩

end Work

/-! ## The whole merge -/

/-- The scope once the last day was looked up. -/
def Scope.load (v : Scope) (user goal : Id) : Scope :=
  { v with slot := if v.slot.loaded then v.slot else v.slot.load (v.store.findLast user goal) }

/-- The day of an event has to be attached to its week: any day that is not
the cached one, and that one if it is still marked. -/
def Lookup.attaches (lookup : Lookup) (slot : Slot) : Bool :=
  match lookup with
  | current _ => slot.weekPending
  | _ => true

theorem Lookup.attaches_of_day? {lookup : Lookup} (h : lookup.day? = none) (slot : Slot) :
    lookup.attaches slot = true := by
  cases lookup with
  | current => cases h
  | empty => rfl
  | following => rfl
  | preceding => rfl

section Ending

variable (s : Settings) (user : User) (goal : Id) (e : UsageEvent)

/-- An event was recorded: it was placed, its day taken and changed, and
the day saved if it changed and cached unless the event came late. -/
structure Recorded (v : Scope) (p : Placement) (d : Day) (opened : Bool) (next : Nat) (r : Merged)
    (v' : Scope) : Prop where
  placed : Placed v.store user goal e.starts v.slot.day p
  taken : Taken user.id goal p v.nextId d opened next
  applied : Applied s d opened (e.fit d) next r v'.nextId
  store : v'.store = if r.outcome.isPersisted then v.store.saveDay r.day else v.store
  slot : v'.slot = if p.lookup.isLate then v.slot else v.slot.replace r.day

/-- Why an event is not recorded, outages apart. -/
inductive Unrecorded (v : Scope) : Stop → Prop where
  | unplaced {stop : Stop} (h : Unplaced v.store user goal e.starts v.slot.day stop) :
      Unrecorded v stop
  | unopened {p : Placement} {z : ZoneError} (placed : Placed v.store user goal e.starts v.slot.day p)
      (h : p.lookup.day? = none) (opens : Day.create ⟨v.nextId⟩ user.id goal p.zone p.date = .error z) :
      Unrecorded v (.failed (.zone z))
  | unapplied {p : Placement} {d : Day} {opened : Bool} {next : Nat} {stop : Stop}
      (placed : Placed v.store user goal e.starts v.slot.day p)
      (taken : Taken user.id goal p v.nextId d opened next)
      (h : Unapplied s d (e.fit d) next stop) : Unrecorded v stop

/-- A recorded day was attached to its week where that was to be done, and
the mark taken off the slot of a cached day. -/
inductive Finished (attaches late : Bool) (d : Day) (v : Scope) : Scope → Prop where
  | skipped (h : attaches = false) : Finished attaches late d v v
  | attached {m : MemoryStore} {next : Nat} (h : attaches = true)
      (attached : Attached v.store d v.nextId m next) :
      Finished attaches late d v ⟨m, if late then v.slot else v.slot.markAttached, next⟩

/-- A recorded day was to be attached to its week, and this stopped, in a
world where the day is saved and cached. -/
structure Refused (attaches : Bool) (d : Day) (v : Scope) (stop : Stop) (w' : World) : Prop where
  attaches : attaches = true
  stops : ∃ w, w.store = .memory v.store ∧ (Work.attachDay d).exec w = (.error stop, w')

/-- How a merge ends that starts in a world with a scope. -/
inductive Ending (w : World) (v : Scope) : Except Stop Merged → World → Prop where
  | unloaded {stop : Stop} {w' : World} (failing : w.Failing stop) (h : w.At user.id goal v w') :
      Ending w v (.error stop) w'
  | unrecorded {stop : Stop} {next : Nat} {w' : World}
      (why : w.Failing stop ∨ Unrecorded s user goal e (v.load user.id goal) stop)
      (h : w.At user.id goal { v.load user.id goal with nextId := next } w')
      (le : v.nextId ≤ next) : Ending w v (.error stop) w'
  | unattached {p : Placement} {d : Day} {opened : Bool} {next next' : Nat} {r : Merged} {v' : Scope}
      {stop : Stop} {w' : World}
      (recorded : Recorded s user goal e (v.load user.id goal) p d opened next r v')
      (why : w.Failing stop ∨ Date.last ≤ r.day.date)
      (h : w.At user.id goal { v' with nextId := next' } w') (le : v'.nextId ≤ next')
      (refused : Refused (p.lookup.attaches (v.load user.id goal).slot) r.day v' stop w') :
      Ending w v (.error stop) w'
  | merged {p : Placement} {d : Day} {opened : Bool} {next : Nat} {r : Merged} {v' v'' : Scope}
      {w' : World} (recorded : Recorded s user goal e (v.load user.id goal) p d opened next r v')
      (finished : Finished (p.lookup.attaches (v.load user.id goal).slot) p.lookup.isLate r.day v' v'')
      (h : w.At user.id goal v'' w') : Ending w v (.ok r) w'

end Ending

namespace Work

variable {base w : World} {user goal : Id} {v : Scope} {d : Day}

theorem loadedSlot_ok (h : base.At user goal v w) :
    WP (loadedSlot user goal) w
      (fun slot w' => slot = (v.load user goal).slot ∧ base.At user goal (v.load user goal) w')
      fun stop w' => base.Failing stop ∧ base.At user goal v w' := by
  unfold loadedSlot
  refine (openSlot_ok h).bind (fun slot w₁ ⟨hslot, h₁⟩ => ?_) fun _ _ => False.elim
  rw [hslot]
  refine WP.ite (fun loaded => ?_) fun unloaded => ?_
  · have same : v.load user goal = v := by simp [Scope.load, loaded]
    rw [same]
    exact WP.pure ⟨rfl, h₁⟩
  · refine (findLast_ok _ _ h₁).bind (fun last w₂ ⟨hlast, h₂⟩ => ?_) fun _ _ => id
    rw [hlast]
    refine (setSlot_ok _ h₂).bind (fun _ w₃ h₃ => ?_) fun _ _ => False.elim
    have loads : v.load user goal =
        { v with slot := v.slot.load (v.store.findLast user goal) } := by
      simp [Scope.load, unloaded]
    rw [loads]
    exact WP.pure ⟨rfl, h₃⟩

/-- The last day is looked up where no call fails. -/
theorem loadedSlot_calm (h : base.At user goal v w) (calm : base.outages = []) :
    ∃ w₁, exec (loadedSlot user goal) w = (.ok (v.load user goal).slot, w₁) ∧
      base.At user goal (v.load user goal) w₁ := by
  obtain ⟨_, w₁, done, rfl, h₁⟩ := (loadedSlot_ok h).exists_ok fun _ _ failed => failed.1.1 calm
  exact ⟨w₁, done, h₁⟩

theorem attachPending_ok (attaches late : Bool) (h : base.At user goal v w) :
    WP (attachPending user goal attaches (!late) d) w
      (fun _ w' => ∃ v', Finished attaches late d v v' ∧ base.At user goal v' w')
      fun stop w' => (base.Failing stop ∨ Date.last ≤ d.date) ∧
        Refused attaches d v stop w' ∧
        ∃ next, v.nextId ≤ next ∧ base.At user goal { v with nextId := next } w' := by
  unfold attachPending
  refine WP.ite (fun hattaches => ?_) fun skips => ?_
  · refine (attachDay_ok h).exec.bind (fun _ w₁ ⟨_, m, next, attached, h₁⟩ => ?_)
      fun stop w₁ ⟨stops, why, h₁⟩ => ⟨why, ⟨hattaches, w, h.store, stops⟩, h₁⟩
    cases late with
    | true => exact WP.pure ⟨_, .attached hattaches attached, h₁⟩
    | false =>
      refine (openSlot_ok h₁).bind (fun slot w₂ ⟨hslot, h₂⟩ => ?_) fun _ _ => False.elim
      rw [hslot]
      refine (setSlot_ok _ h₂).mono (fun _ w₃ h₃ => ?_) fun _ _ => False.elim
      exact ⟨_, .attached hattaches attached, h₃⟩
  · exact WP.pure ⟨v, .skipped (by simpa using skips), h⟩

/-- The part of a merge that records the event, once the slot is known: it
is placed, its day taken and changed, and the day saved if it changed. -/
def recordEvent (s : Settings) (slot : Slot) (user : User) (goal : Id) (e : UsageEvent) :
    Work (Placement × Merged) := do
  let p ← place slot user goal e.starts
  report (lookedUp user.id goal p)
  let (d, opened) ← takeDay user.id goal p
  if d.ends < e.ends then report (e.cut d)
  let r ← apply s d opened (e.fit d)
  if r.outcome.isPersisted then saveDay r.day
  return (p, r)

/-- The part of a merge after that: the day is cached unless the event came
late, and attached to its week. -/
def settle (slot : Slot) (user goal : Id) (p : Placement) (r : Merged) : Work Merged := do
  if !p.lookup.isLate then setSlot user goal (slot.replace r.day)
  attachPending user goal (p.lookup.attaches slot) (!p.lookup.isLate) r.day
  report (mergedEvent user goal r.outcome)
  return r

theorem ite_bind {α β : Type} {c : Prop} [Decidable c] (x y : Work α) (f : α → Work β) :
    (if c then x else y) >>= f = if c then x >>= f else y >>= f := apply_ite (· >>= f) ..

/-- A merge is its two parts, the marks read off the lookup. -/
theorem merge_eq (s : Settings) (user : User) (goal : Id) (e : UsageEvent) :
    merge s user goal e = (do
      let slot ← loadedSlot user.id goal
      let (p, r) ← recordEvent s slot user goal e
      settle slot user.id goal p r) := by
  unfold merge recordEvent
  refine bind_congr fun slot => ?_
  rw [bind_assoc]
  refine bind_congr fun ⟨lookup, zone, date⟩ => ?_
  rw [bind_assoc]
  refine bind_congr fun _ => ?_
  rw [bind_assoc]
  refine bind_congr fun (d, opened) => ?_
  dsimp only
  rw [ite_bind, bind_assoc]
  refine ite_congr rfl (fun _ => bind_congr fun _ => ?_) fun _ => ?_
  all_goals
    rw [bind_assoc]
    refine bind_congr fun r => ?_
    unfold settle
    rw [ite_bind, bind_assoc]
    cases lookup <;> rfl

section Merge

variable {s : Settings} {user : User} {e : UsageEvent}

theorem recordEvent_ok (h : base.At user.id goal v w) :
    WP (recordEvent s v.slot user goal e) w
      (fun (p, r) w' => ∃ d opened next v', Recorded s user goal e v p d opened next r v' ∧
        base.At user.id goal { v' with slot := v.slot } w')
      fun stop w' => (base.Failing stop ∨ Unrecorded s user goal e v stop) ∧
        ∃ next, v.nextId ≤ next ∧ base.At user.id goal { v with nextId := next } w' := by
  unfold recordEvent
  refine (place_ok h).bind (fun p w₁ ⟨placed, h₁⟩ => ?_)
    fun stop w₁ ⟨why, h₁⟩ => ⟨why.imp id .unplaced, v.nextId, Nat.le_refl _, h₁⟩
  refine (report_ok _ h₁).bind (fun _ w₂ h₂ => ?_) fun _ _ => False.elim
  refine (takeDay_ok p h₂).bind (fun (d, opened) w₃ ⟨next, taken, h₃⟩ => ?_)
    fun stop w₃ ⟨⟨z, hnone, opens, hstop⟩, h₃⟩ =>
      ⟨.inr (hstop ▸ .unopened placed hnone opens), v.nextId + 1, Nat.le_succ _, h₃⟩
  refine WP.ite_bind (base.At user.id goal _) (fun _ => report_ok _ h₃) (fun _ => h₃)
    (fun w₄ h₄ => ?_) fun _ _ => False.elim
  refine (apply_ok s d opened (e.fit d) h₄).bind (fun r w₅ ⟨next', applied, h₅⟩ => ?_)
    fun stop w₅ ⟨why, next', le, h₅⟩ =>
      ⟨.inr (.unapplied placed taken why), next', Nat.le_trans taken.le le, h₅⟩
  obtain ⟨m, hm⟩ : ∃ m, m = if r.outcome.isPersisted then v.store.saveDay r.day else v.store :=
    ⟨_, rfl⟩
  refine WP.ite_bind (base.At user.id goal ⟨m, v.slot, next'⟩) (fun persisted => ?_) (fun kept => ?_)
    (fun w₆ h₆ => WP.pure ⟨d, opened, next, ⟨m, _, next'⟩, ⟨placed, taken, applied, hm, rfl⟩, h₆⟩)
    fun stop w₆ (failed : base.Failing stop ∧
      base.At user.id goal { v with nextId := next' } w₆) =>
        ⟨.inl failed.1, next', Nat.le_trans taken.le applied.le, failed.2⟩
  · rw [hm, if_pos persisted]
    exact saveDay_ok _ h₅
  · rw [hm, if_neg kept]
    exact h₅

theorem settle_ok {p : Placement} {opened : Bool} {next : Nat} {r : Merged} {v' : Scope}
    (recorded : Recorded s user goal e v p d opened next r v')
    (h : base.At user.id goal { v' with slot := v.slot } w) :
    WP (settle v.slot user.id goal p r) w
      (fun r' w' => r' = r ∧ ∃ v'', Finished (p.lookup.attaches v.slot) p.lookup.isLate r.day v' v'' ∧
        base.At user.id goal v'' w')
      fun stop w' => (base.Failing stop ∨ Date.last ≤ r.day.date) ∧
        Refused (p.lookup.attaches v.slot) r.day v' stop w' ∧
        ∃ next, v'.nextId ≤ next ∧ base.At user.id goal { v' with nextId := next } w' := by
  obtain ⟨m, slot', next'⟩ := v'
  have slot : slot' = if p.lookup.isLate then v.slot else v.slot.replace r.day := recorded.slot
  unfold settle
  refine WP.ite_bind (base.At user.id goal ⟨m, slot', next'⟩) (fun cached => ?_) (fun late => ?_)
    (fun w₁ h₁ => ?_) fun _ _ => False.elim
  · rw [slot, if_neg (by simpa using cached)]
    exact setSlot_ok _ h
  · rw [slot, if_pos (by simpa using late)]
    exact h
  refine (attachPending_ok (p.lookup.attaches _) p.lookup.isLate h₁).bind
    (fun _ w₂ ⟨v'', finished, h₂⟩ => ?_) fun stop w₂ refused => refused
  refine (report_ok _ h₂).bind (fun _ w₃ h₃ => ?_) fun _ _ => False.elim
  exact WP.pure ⟨rfl, v'', finished, h₃⟩

/-- A merge ends in one of these ways. -/
theorem merge_ok (h : w.At user.id goal v w) :
    WP (merge s user goal e) w (fun r w' => Ending s user goal e w v (.ok r) w')
      fun stop w' => Ending s user goal e w v (.error stop) w' := by
  rw [merge_eq]
  refine (loadedSlot_ok h).bind (fun slot w₁ ⟨hslot, h₁⟩ => ?_)
    fun stop w₁ ⟨failing, h₁⟩ => .unloaded failing h₁
  rw [hslot]
  refine (recordEvent_ok h₁).bind (fun (p, r) w₂ ⟨d, opened, next, v', recorded, h₂⟩ => ?_)
    fun stop w₂ ⟨why, next, le, h₂⟩ => .unrecorded why h₂ le
  refine (settle_ok recorded h₂).mono (fun r' w₃ ⟨same, v'', finished, h₃⟩ => ?_)
    fun stop w₃ ⟨why, refused, next, le, h₃⟩ => .unattached recorded why h₃ le refused
  exact same ▸ .merged recorded finished h₃

end Merge

/-- A merge with its store in memory ends in one of these ways. -/
theorem merge_ending (s : Settings) (user : User) (goal : Id) (e : UsageEvent) {m : MemoryStore}
    (h : w.store = .memory m) : Ending s user goal e w ⟨m, w.cache.slot user.id goal, w.nextId⟩
      ((merge s user goal e).exec w).1 ((merge s user goal e).exec w).2 := by
  have ends := merge_ok (World.at_self h user.id goal) (s := s) (e := e)
  unfold WP at ends
  rcases he : (merge s user goal e).exec w with ⟨_ | _, w'⟩ <;> rw [he] at ends <;> exact ends

end Work
end UsageDiary
