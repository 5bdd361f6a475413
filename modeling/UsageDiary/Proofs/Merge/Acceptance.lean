import UsageDiary.Proofs.Cache.Latest

/-!
# Which events are taken

Without outages, and as long as the calendar has the dates and instants
that are asked for, there is one reason to refuse an event: it comes before
the cached day, and every zone that the search tries shows a date whose day
does not cover it (`World.Stuck`). Days kept from different zones may be
placed so (`Sample.late_event_refused`).
-/

namespace UsageDiary

/-- The calendar has what an event asks for in a zone: the date of its
start, the bounds of that date, and the instants that a new activity may be
moved to. -/
def UsageEvent.InRange (s : Settings) (e : UsageEvent) (z : Zone) : Prop :=
  ∃ date ∈ z.localDate? e.starts, ∃ _ ∈ (z.startOfDay date).toOption,
    ∃ ends ∈ (z.startOfNextDay date).toOption, ∀ length ∈ s.minimumDuration?,
      (e.starts.shift? length).isSome ∧ (ends.shift? (-length)).isSome

instance (s : Settings) (e : UsageEvent) (z : Zone) : Decidable (e.InRange s z) := by
  unfold UsageEvent.InRange
  infer_instance

section Refusals

variable {s : Settings} {user : User} {goal : Id} {e : UsageEvent} {m : MemoryStore}
  {cached : Option Day} {p : Placement} {d : Day} {opened : Bool} {next next' : Nat}
  {zones : List Zone}

/-- An event starts in the day that takes it. -/
theorem Taken.covers {t : Instant} (taken : Taken user.id goal p next d opened next')
    (placed : Placed m user goal t cached p) (regular : ∀ z ∈ zones, z.Regular)
    (days : m.DaysIn zones user.id goal) (zone : user.zone ∈ zones)
    (coherent : ∀ c, cached = some c → m.findDay user.id goal c.date = some c) :
    d.covers t = true := by
  cases taken with
  | kept hd => exact placed.covers hd
  | opened hnone opens =>
    obtain ⟨hzone, shows⟩ := placed.dated hnone days zone coherent
    have bounded := Day.bounded_of_create opens
    rw [(Day.create_eq_ok opens).2.2] at bounded ⊢
    exact (Day.covers_iff (regular _ hzone) bounded shows).mpr rfl

/-- Cut at the end of a day that it starts in, an event lies in the day. -/
theorem UsageEvent.within_fit (regular : d.zone.Regular) (bounded : d.Bounded)
    (covers : d.covers e.starts = true) (ordered : e.starts ≤ e.ends)
    (inRange : e.InRange s d.zone) : (e.fit d).Within s d := by
  obtain ⟨date, shows, -, -, ends, hends, instants⟩ := inRange
  have hdate : date = d.date := (Day.covers_iff regular bounded shows).mp covers
  have hd : ends = d.ends := by
    rw [mem_toOption, hdate, bounded.ends] at hends
    exact (Except.ok.inj hends).symm
  refine ⟨by rw [starts_fit]; exact covers, ?_, ?_, bounded.ordinary_ends, fun hlength => ?_,
    fun hlength => ?_⟩
  · rw [starts_fit, ends_fit]
    exact le_min ordered (le_of_lt (Day.covers_def.mp covers).2)
  · rw [ends_fit]
    exact min_le_right _ _
  · rw [starts_fit]
    exact Option.isSome_iff_exists.mp (instants _ hlength).1
  · exact hd ▸ Option.isSome_iff_exists.mp (instants _ hlength).2

/-- A day is opened for a date if the calendar has its bounds. -/
theorem UsageEvent.InRange.create_ne_error {z : Zone} (h : e.InRange s z) {date : Date}
    (shows : z.localDate? e.starts = some date) (id user goal : Id) {error : ZoneError} :
    Day.create id user goal z date ≠ .error error := by
  obtain ⟨date', shows', starts, hstarts, ends, hends, -⟩ := h
  rw [Option.mem_def, shows, Option.some.injEq] at shows'
  rw [mem_toOption, ← shows'] at hstarts hends
  intro hcreate
  simp only [Day.create, hstarts, hends] at hcreate
  cases hcreate

/-- An event that is not recorded found no day that could take it. -/
theorem Unrecorded.blocked {v : Scope} {stop : Stop} (h : Unrecorded s user goal e v stop)
    (measured : s.Measured) (regular : ∀ z ∈ zones, z.Regular) (days : v.store.DaysIn zones user.id goal)
    (zone : user.zone ∈ zones) (coherent : v.slot.Coherent v.store user.id goal)
    (ordered : e.starts ≤ e.ends) (inRange : ∀ z ∈ zones, e.InRange s z) :
    stop = .failed (.violation (.noDayFor e.starts)) ∧ ∃ c, v.slot.day = some c ∧
      e.starts < c.starts ∧
      Blocked v.store user.id goal e.starts (Work.firstZones user.zone c.zone) := by
  have dated {z : Zone} (hz : z ∈ zones) : z.localDate? e.starts ≠ none := by
    obtain ⟨date, shows, -⟩ := inRange z hz
    rw [Option.mem_def.mp shows]
    exact Option.some_ne_none date
  cases h with
  | unplaced unplaced =>
    obtain ⟨cached, hcached⟩ : ∃ cached, v.slot.day = cached := ⟨_, rfl⟩
    rw [hcached] at unplaced
    cases unplaced with
    | user hnone => exact absurd hnone (dated zone)
    | cached hnone => exact absurd hnone (dated (days _ _ (coherent _ hcached)).2)
    | preceding before lost =>
      cases lost with
      | blocked blocked => exact ⟨rfl, _, hcached, before, blocked⟩
      | undated tries hnone =>
        exact absurd hnone (dated (tries.mem zone (days _ _ (coherent _ hcached)).2 days))
  | unopened placed hnone opens =>
    obtain ⟨hzone, shows⟩ := placed.dated hnone days zone coherent
    exact absurd opens ((inRange _ hzone).create_ne_error shows _ _ _)
  | unapplied placed taken unapplied =>
    obtain ⟨bounded, hzone⟩ := taken.bounded placed days zone coherent
    have covers := taken.covers placed regular days zone coherent
    exact absurd unapplied (not_unapplied measured
      (UsageEvent.within_fit (regular _ hzone) bounded covers ordered (inRange _ hzone)))

/-- The search for a user who keeps a zone is not blocked: a stored day of the
date that the zone shows covers the instant. -/
theorem MemoryStore.DaysIn.not_blocked {t : Instant} (days : m.DaysIn [user.zone] user.id goal)
    (regular : user.zone.Regular) (cachedZone : Zone) :
    ¬ Blocked m user.id goal t (Work.firstZones user.zone cachedZone) := by
  intro blocked
  obtain ⟨date, d, shows, holds, covers⟩ := blocked (.first (Work.mem_firstZones.mpr (.inl rfl)))
  obtain ⟨bounded, hzone⟩ := days _ _ holds
  rw [List.mem_singleton] at hzone
  have covers' := (Day.covers_iff (hzone ▸ regular) bounded (hzone ▸ shows)).mpr
    (MemoryStore.key_of_findDay holds).2.2.symm
  rw [covers] at covers'
  cases covers'

end Refusals

/-! ## Runs without outages -/

namespace World

/-- There are no outages, the store is in memory, the days of each user
have zones that are the user's, and the cached days are the stored ones. -/
structure Sound (zones : Id → List Zone) (w : World) : Prop where
  outages : w.outages = []
  stored : ∃ m, w.store = .memory m ∧ ∀ user goal, m.DaysIn (zones user) user goal ∧
    (w.cache.slot user goal).Coherent m user goal

variable {s : Settings} {zones : Id → List Zone} {w : World}

theorem sound_fresh (zones : Id → List Zone) (now : Instant) (nextId : Nat) :
    (fresh now nextId).Sound zones := by
  refine ⟨rfl, {}, rfl, fun user goal => ⟨fun date d hd => ?_, Slot.coherent_empty _ _ _⟩⟩
  cases hd

theorem Sound.next (h : w.Sound zones) {a : Act} (uses : a.Uses zones) (calm : a.Calm) :
    (a.next s w).Sound zones := by
  have outages : (a.next s w).outages = [] := by
    obtain ⟨m, hm, -⟩ := h.stored
    cases a with
    | merge user goal e =>
      obtain ⟨v', -, at'⟩ := (Work.merge_ending s user goal e hm).moved
      exact at'.outages h.outages
    | invalidate | restart => exact h.outages
    | outages => exact calm.elim
  have keyed : w.Keyed fun m user goal slot =>
    m.DaysIn (zones user) user goal ∧ slot.Coherent m user goal := h.stored
  refine ⟨outages, keyed.next a ?_ ?_ ?_⟩
  · rintro user goal e v v' rfl moved ⟨days, coherent⟩
    exact ⟨moved.daysIn days uses coherent, moved.coherent coherent⟩
  · intro user goal e v v' user' goal' slot moved ⟨_, own⟩ hne ⟨days, coherent⟩
    exact ⟨moved.daysIn_of_ne own hne days, moved.coherent_of_ne own hne coherent⟩
  · intro m user goal slot ⟨days, _⟩
    exact ⟨days, Slot.coherent_empty _ _ _⟩

theorem sound_after (now : Instant) (nextId : Nat) {acts : List Act}
    (uses : ∀ a ∈ acts, a.Uses zones) (calm : ∀ a ∈ acts, a.Calm) :
    ((fresh now nextId).after s acts).Sound zones :=
  after_induction (Sound zones) (sound_fresh zones now nextId)
    fun a ha _ h => h.next (uses a ha) (calm a ha)

/-- An instant comes before the last day of a user and goal, and no day can
take it: each zone that a search tries shows a date whose day does not
cover it. -/
def Stuck (w : World) (user : User) (goal : Id) (t : Instant) : Prop :=
  ∃ m c, w.store = .memory m ∧
    (Scope.load ⟨m, w.cache.slot user.id goal, w.nextId⟩ user.id goal).slot.day = some c ∧
    t < c.starts ∧ Blocked m user.id goal t (Work.firstZones user.zone c.zone)

theorem Orderly.sound (h : w.Orderly zones) (outages : w.outages = []) : w.Sound zones := by
  obtain ⟨m, hm, orderly⟩ := h
  exact ⟨outages, m, hm, fun user goal => ⟨(orderly user goal).1, (orderly user goal).2.coherent⟩⟩

/-- A user who keeps a zone is not stuck. -/
theorem Sound.not_stuck_of_fixed (h : w.Sound zones) {user : User} {goal : Id} {t : Instant}
    (zone : zones user.id = [user.zone]) (regular : user.zone.Regular) : ¬ w.Stuck user goal t := by
  rintro ⟨m, c, hm, -, -, blocked⟩
  have days := (of_memory h.stored hm user.id goal).1
  rw [zone] at days
  exact days.not_blocked regular c.zone blocked

/-- A merge that ends well was not stuck. -/
theorem Sound.not_stuck (h : w.Sound zones) {user : User}
    (regular : ∀ z ∈ zones user.id, z.Regular) {goal : Id} {e : UsageEvent} {r : Merged}
    (merged : ((Work.merge s user goal e).exec w).1 = .ok r) : ¬ w.Stuck user goal e.starts := by
  rintro ⟨m, c, hm, hc, before, blocked⟩
  obtain ⟨days, coherent⟩ := of_memory h.stored hm user.id goal
  obtain ⟨bounded, hzone⟩ := days _ _
    (Scope.load_coherent (v := ⟨m, w.cache.slot user.id goal, w.nextId⟩) coherent c hc)
  -- The end of the cached day comes after its start, so the event does not follow it.
  have notAfter (after : c.ends ≤ e.starts) : False :=
    absurd (lt_trans before (Day.starts_lt_ends (regular _ hzone) bounded)) (not_lt_of_ge after)
  have ending := Work.merge_ending s user goal e hm
  rw [merged] at ending
  cases ending with
  | merged recorded =>
    have placed := recorded.placed
    rw [hc] at placed
    cases placed with
    | current covers => exact absurd (Day.covers_def.mp covers).1 (not_le_of_gt before)
    | following after => exact notAfter after
    | followingCached after => exact notAfter after
    | preceding _ sought => exact sought.not_blocked blocked

/-- A merge that stops was stuck. -/
theorem Sound.stuck (h : w.Sound zones) (measured : s.Measured) {user : User}
    (regular : ∀ z ∈ zones user.id, z.Regular) {goal : Id} {e : UsageEvent}
    (zone : user.zone ∈ zones user.id) (ordered : e.starts ≤ e.ends)
    (inRange : ∀ z ∈ zones user.id, e.InRange s z) {stop : Stop}
    (stopped : ((Work.merge s user goal e).exec w).1 = .error stop) :
    stop = .failed (.violation (.noDayFor e.starts)) ∧ w.Stuck user goal e.starts := by
  obtain ⟨m, hm, stored⟩ := h.stored
  obtain ⟨days, coherent⟩ := stored user.id goal
  have loaded := Scope.load_coherent (v := ⟨m, w.cache.slot user.id goal, w.nextId⟩) coherent
  have calm : ¬ w.Failing stop := fun failing => failing.1 h.outages
  have ending := Work.merge_ending s user goal e hm
  rw [stopped] at ending
  cases ending with
  | unloaded failing => exact absurd failing calm
  | unrecorded why =>
    obtain ⟨hstop, c, hc, before, blocked⟩ :=
      (why.resolve_left calm).blocked measured regular days zone loaded ordered inRange
    exact ⟨hstop, m, c, hm, hc, before, blocked⟩
  | unattached recorded why =>
    exact absurd (recorded.lt_last days zone loaded) (not_lt_of_ge (why.resolve_left calm))

end World

/-- An event is taken unless it is stuck, however late it comes and however
users' zones changed before. One that is stuck is refused as a violation. -/
theorem merge_ok_iff_not_stuck (zones : Id → List Zone)
    (regular : ∀ user, ∀ z ∈ zones user, z.Regular) {s : Settings} (measured : s.Measured)
    (now : Instant) (nextId : Nat) {acts : List Act} (uses : ∀ a ∈ acts, a.Uses zones)
    (calm : ∀ a ∈ acts, a.Calm) {user : User} (goal : Id) {e : UsageEvent}
    (zone : user.zone ∈ zones user.id) (ordered : e.starts ≤ e.ends)
    (inRange : ∀ z ∈ zones user.id, e.InRange s z) :
    let w := (World.fresh now nextId).after s acts
    ((∃ r, ((Work.merge s user goal e).exec w).1 = .ok r) ↔ ¬ w.Stuck user goal e.starts) ∧
    (w.Stuck user goal e.starts → ((Work.merge s user goal e).exec w).1 =
      .error (.failed (.violation (.noDayFor e.starts)))) := by
  intro w
  have sound := World.sound_after (s := s) now nextId uses calm
  have stops {stop : Stop} (stopped : ((Work.merge s user goal e).exec w).1 = .error stop) :=
    sound.stuck measured (regular user.id) zone ordered inRange stopped
  refine ⟨⟨fun ⟨r, merged⟩ => sound.not_stuck (regular user.id) merged, fun notStuck => ?_⟩, fun stuck => ?_⟩
  · cases result : ((Work.merge s user goal e).exec w).1 with
    | ok r => exact ⟨r, rfl⟩
    | error stop => exact absurd (stops result).2 notStuck
  · cases result : ((Work.merge s user goal e).exec w).1 with
    | ok r => exact absurd stuck (sound.not_stuck (regular user.id) result)
    | error stop => rw [(stops result).1]

/-- The user's zone was changed between two events, and a third comes late:
its date in either zone is that of a day which does not cover it. -/
def Sample.moved : World :=
  (World.fresh .epoch 0).after {} [.merge (Sample.user .east14) Sample.goal (Sample.event 300),
    .merge (Sample.user .utc) Sample.goal (Sample.event 1500)]

/-- Between the two days an event is stuck, inside the later one it is not. -/
theorem Sample.stuck_between : Sample.moved.Stuck (Sample.user .utc) Sample.goal (Sample.event 900).starts ∧
    ¬ Sample.moved.Stuck (Sample.user .utc) Sample.goal (Sample.event 1510).starts := by
  have measured : ({} : Settings).Measured := Settings.measured_of_validate (by decide) (by decide)
  have uses : ∀ a ∈ [Act.merge (Sample.user .east14) Sample.goal (Sample.event 300),
      .merge (Sample.user .utc) Sample.goal (Sample.event 1500)], a.Uses fun _ => [.utc, .east14] := by
    simp [Act.Uses, Sample.user]
  have calm : ∀ a ∈ [Act.merge (Sample.user .east14) Sample.goal (Sample.event 300),
      .merge (Sample.user .utc) Sample.goal (Sample.event 1500)], a.Calm := by
    simp [Act.Calm]
  have zone : (Sample.user .utc).zone ∈ [Zone.utc, .east14] := by simp [Sample.user]
  have late := merge_ok_iff_not_stuck (fun _ => [.utc, .east14])
    (fun _ => compatible_utc_east14.regular) measured .epoch 0 uses calm
    Sample.goal zone (e := Sample.event 900) (by decide +kernel) (by decide +kernel)
  have current := merge_ok_iff_not_stuck (fun _ => [.utc, .east14])
    (fun _ => compatible_utc_east14.regular) measured .epoch 0 uses calm
    Sample.goal zone (e := Sample.event 1510) (by decide +kernel) (by decide +kernel)
  refine ⟨not_not.mp fun notStuck => ?_, current.1.mp (exists_of_isOk (by decide +kernel))⟩
  obtain ⟨r, merged⟩ := late.1.mpr notStuck
  have refused : ((Work.merge {} (Sample.user .utc) Sample.goal (Sample.event 900)).exec
      Sample.moved).1.isOk = false := by decide +kernel
  rw [show ((Work.merge {} (Sample.user .utc) Sample.goal (Sample.event 900)).exec
    Sample.moved).1 = .ok r from merged] at refused
  cases refused

/-- A late event between two days of different zones is refused, although
its zones are regular and the calendar has all that it asks for. -/
theorem Sample.late_event_refused : (∀ z ∈ [Zone.utc, Zone.east14], z.Regular) ∧
    (Sample.event 900).starts ≤ (Sample.event 900).ends ∧
    (∀ z ∈ [Zone.utc, Zone.east14], (Sample.event 900).InRange {} z) ∧
    ((Work.merge {} (Sample.user .utc) Sample.goal (Sample.event 900)).exec Sample.moved).1 =
      .error (.failed (.violation (.noDayFor (Sample.event 900).starts))) := by
  exact ⟨compatible_utc_east14.regular, by decide +kernel, by decide +kernel, by decide +kernel⟩

end UsageDiary
