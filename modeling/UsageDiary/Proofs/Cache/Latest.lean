import UsageDiary.Proofs.Cache.Coherent

/-!
# Nothing recorded is lost

Users come with regular zones here, no two of which are more than a day
apart. Then a slot that was loaded holds the last day of the store
(`Slot.Latest`), whatever zones its days were opened in: an event after the
cached day opens a later date, and one before it is recorded at an earlier
one (`Recorded.date_lt`, `Recorded.date_le`). So a day is only ever opened
at a free date (`Recorded.free`), and days only grow (`usage_retained`).
-/

namespace UsageDiary

/-- A slot that was loaded holds the last day, and another one none. -/
structure Slot.Latest (m : MemoryStore) (user goal : Id) (slot : Slot) : Prop where
  last : slot.loaded = true → m.IsLast user goal slot.day
  empty : slot.loaded = false → slot.day = none

theorem Slot.Latest.coherent {m : MemoryStore} {user goal : Id} {slot : Slot}
    (h : slot.Latest m user goal) : slot.Coherent m user goal := by
  intro c hc
  cases hl : slot.loaded with
  | true =>
    have last := h.last hl
    rw [hc] at last
    exact last.1
  | false =>
    rw [h.empty hl] at hc
    cases hc

theorem Scope.load_isLast {v : Scope} {user goal : Id} (h : v.slot.Latest v.store user goal) :
    v.store.IsLast user goal (v.load user goal).slot.day := by
  unfold load
  dsimp only
  split
  · next loaded => exact h.last loaded
  · exact MemoryStore.isLast_findLast v.store user goal

/-- The stored days of a user and goal have the bounds of their dates in
their zones, which are among these. -/
def MemoryStore.DaysIn (m : MemoryStore) (zones : List Zone) (user goal : Id) : Prop :=
  ∀ date d, m.findDay user goal date = some d → d.Bounded ∧ d.zone ∈ zones

/-- The zones are regular, and no two show dates more than a day apart. -/
structure Compatible (zones : List Zone) : Prop where
  regular : ∀ z ∈ zones, z.Regular
  near : ∀ z ∈ zones, ∀ z' ∈ zones, z.Near z'

theorem compatible_singleton {z : Zone} (regular : z.Regular) : Compatible [z] where
  regular := by simpa using regular
  near := by
    simp only [List.mem_singleton, forall_eq]
    intro t d d' hd hd'
    rw [hd, Option.some.injEq] at hd'
    rw [hd']
    omega

section Recorded

variable {s : Settings} {user : User} {goal : Id} {e : UsageEvent} {v v' : Scope} {p : Placement}
  {d c : Day} {opened : Bool} {next : Nat} {r : Merged} {zones : List Zone}

/-- A search tries zones of users and of stored days only. -/
theorem Tries.mem {m : MemoryStore} {user goal : Id} {t : Instant} {userZone cachedZone z : Zone}
    (h : Tries m user goal t (Work.firstZones userZone cachedZone) z) (user_mem : userZone ∈ zones)
    (cached_mem : cachedZone ∈ zones) (days : m.DaysIn zones user goal) : z ∈ zones := by
  induction h with
  | first h =>
    rcases Work.mem_firstZones.mp h with rfl | rfl
    · exact user_mem
    · exact cached_mem
  | met _ _ holds _ _ => exact (days _ _ holds).2

/-- An event that is not late goes to a date no earlier than the cached one,
and to a later one if a day is opened for it. -/
theorem Recorded.date_le (h : Recorded s user goal e v p d opened next r v')
    (regular : c.zone.Regular) (bounded : c.Bounded) (cached : v.slot.day = some c)
    (late : p.lookup.isLate = false) : c.date ≤ d.date ∧ (opened = true → c.date < d.date) := by
  have placed := h.placed
  rw [cached] at placed
  have opens (date : p.lookup.day? = none → c.date < p.date)
      (kept : ∀ d', p.lookup.day? = some d' → d' = c) :
      c.date ≤ d.date ∧ (opened = true → c.date < d.date) := by
    cases h.taken with
    | kept hd =>
      rw [kept d hd]
      exact ⟨le_refl _, fun h => by cases h⟩
    | opened hnone opens =>
      rw [(Day.create_eq_ok opens).2.2]
      exact ⟨le_of_lt (date hnone), fun _ => date hnone⟩
  cases placed with
  | current => exact opens (fun h => by cases h) fun d' h => by cases h; rfl
  | following _ _ later => exact opens (fun _ => later) fun d' h => by cases h
  | followingCached after _ _ showsCached =>
    exact opens (fun _ => Day.lt_date_of_ends_le regular bounded showsCached after)
      fun d' h => by cases h
  | preceding _ sought => cases sought <;> cases late

/-- A late event goes to an earlier date than the cached one. -/
theorem Recorded.date_lt (h : Recorded s user goal e v p d opened next r v')
    (compatible : Compatible zones) (days : v.store.DaysIn zones user.id goal) (zone : user.zone ∈ zones)
    (last : v.store.IsLast user.id goal v.slot.day) (coherent : v.slot.Coherent v.store user.id goal)
    (cached : v.slot.day = some c) (late : p.lookup.isLate = true) : d.date < c.date := by
  obtain ⟨bounded, hzone⟩ := days _ _ (coherent c cached)
  refine lt_of_le_of_ne ?_ (Ne.symm (h.date_ne coherent cached late))
  obtain ⟨before, z, tries, shows, found, -, dated⟩ := h.sought cached late
  rw [cached] at last
  cases opened with
  | false => exact last.2 found
  | true =>
    -- The cached zone shows an earlier date than the cached one, and this is at most the next.
    obtain ⟨own, hown⟩ := dated rfl
    have hlt := Day.date_lt_of_lt_starts (compatible.regular _ hzone) bounded hown before
    have hnear := compatible.near z (tries.mem zone hzone days) _ hzone shows hown
    rw [Date.lt_def] at hlt
    rw [Date.le_def]
    omega

/-- A day is opened only at a free date. -/
theorem Recorded.free (h : Recorded s user goal e v p d true next r v')
    (compatible : Compatible zones) (days : v.store.DaysIn zones user.id goal)
    (last : v.store.IsLast user.id goal v.slot.day) (coherent : v.slot.Coherent v.store user.id goal) :
    v.store.findDay user.id goal d.date = none := by
  cases cached : v.slot.day with
  | none =>
    rw [cached] at last
    exact last d.date
  | some c =>
    rw [cached] at last
    cases late : p.lookup.isLate with
    | false =>
      obtain ⟨bounded, hzone⟩ := days _ _ (coherent c cached)
      have hlt := (h.date_le (compatible.regular _ hzone) bounded cached late).2 rfl
      refine Option.eq_none_iff_forall_ne_some.mpr fun d' hd' => ?_
      exact absurd (last.2 hd') (not_le_of_gt hlt)
    | true =>
      obtain ⟨-, z, -, -, found, -⟩ := h.sought cached late
      exact found

/-- Recording an event keeps every stored day, which may have grown. -/
theorem Recorded.grows (h : Recorded s user goal e v p d opened next r v')
    (compatible : Compatible zones) (days : v.store.DaysIn zones user.id goal)
    (last : v.store.IsLast user.id goal v.slot.day) (coherent : v.slot.Coherent v.store user.id goal)
    {user' goal' : Id} {date : Date} {old : Day}
    (hold : v.store.findDay user' goal' date = some old) :
    ∃ new, v'.store.findDay user' goal' date = some new ∧ old.Grows new := by
  by_cases same : user' = user.id ∧ goal' = goal ∧ date = d.date
  · obtain ⟨rfl, rfl, rfl⟩ := same
    refine ⟨r.day, h.findDay_self coherent, ?_⟩
    cases opened with
    | false =>
      rw [h.holds_of_kept coherent, Option.some.injEq] at hold
      exact hold ▸ h.applied.grows
    | true =>
      rw [h.free compatible days last coherent] at hold
      cases hold
  · exact ⟨old, (h.findDay_of_ne coherent same).trans hold, .refl old⟩

/-- Recording an event leaves the last day in the slot. -/
theorem Recorded.isLast (h : Recorded s user goal e v p d opened next r v')
    (compatible : Compatible zones) (days : v.store.DaysIn zones user.id goal) (zone : user.zone ∈ zones)
    (last : v.store.IsLast user.id goal v.slot.day)
    (coherent : v.slot.Coherent v.store user.id goal) :
    v'.store.IsLast user.id goal v'.slot.day := by
  have hdate := h.applied.grows.date
  have elsewhere {date : Date} (hne : date ≠ d.date) :
      v'.store.findDay user.id goal date = v.store.findDay user.id goal date :=
    h.findDay_of_ne coherent fun same => hne same.2.2
  rw [h.slot]
  cases late : p.lookup.isLate with
  | true =>
    cases cached : v.slot.day with
    | none =>
      have placed := h.placed
      rw [cached] at placed
      cases placed with
      | empty => cases late
    | some c =>
      rw [cached] at last
      have hlt := h.date_lt compatible days zone (cached ▸ last) coherent cached late
      rw [if_pos rfl, cached]
      refine ⟨by rw [elsewhere (ne_of_gt hlt)]; exact last.1, fun {date e'} he' => ?_⟩
      by_cases same : date = d.date
      · exact same ▸ le_of_lt hlt
      · exact last.2 ((elsewhere same).symm.trans he')
  | false =>
    refine ⟨by rw [hdate]; exact h.findDay_self coherent, fun {date e'} he' => ?_⟩
    rw [hdate]
    by_cases same : date = d.date
    · exact le_of_eq same
    · rw [elsewhere same] at he'
      cases cached : v.slot.day with
      | none =>
        rw [cached] at last
        rw [last date] at he'
        cases he'
      | some c =>
        obtain ⟨bounded, hzone⟩ := days _ _ (coherent c cached)
        rw [cached] at last
        exact le_trans (last.2 he')
          (h.date_le (compatible.regular _ hzone) bounded cached late).1

/-- A day is opened for the date that a zone of these shows. -/
theorem Placed.dated {m : MemoryStore} {t : Instant} {cached : Option Day}
    (placed : Placed m user goal t cached p) (hnone : p.lookup.day? = none)
    (days : m.DaysIn zones user.id goal) (zone : user.zone ∈ zones)
    (coherent : ∀ c, cached = some c → m.findDay user.id goal c.date = some c) :
    p.zone ∈ zones ∧ p.zone.localDate? t = some p.date := by
  cases placed with
  | empty shows => exact ⟨zone, shows⟩
  | current => cases hnone
  | following _ shows _ => exact ⟨zone, shows⟩
  | followingCached _ _ _ shows => exact ⟨(days _ _ (coherent _ rfl)).2, shows⟩
  | preceding _ sought =>
    cases sought with
    | found => cases hnone
    | free tries shows _ _ =>
      exact ⟨tries.mem zone (days _ _ (coherent _ rfl)).2 days, shows⟩

/-- The day that takes an event has its bounds, and a zone of these. -/
theorem Taken.bounded {m : MemoryStore} {t : Instant} {cached : Option Day} {next' : Nat}
    (taken : Taken user.id goal p next d opened next') (placed : Placed m user goal t cached p)
    (days : m.DaysIn zones user.id goal) (zone : user.zone ∈ zones)
    (coherent : ∀ c, cached = some c → m.findDay user.id goal c.date = some c) :
    d.Bounded ∧ d.zone ∈ zones := by
  cases taken with
  | kept hd => exact days _ _ (placed.holds coherent hd)
  | opened hnone opens =>
    refine ⟨Day.bounded_of_create opens, ?_⟩
    rw [(Day.create_eq_ok opens).2.2]
    exact (placed.dated hnone days zone coherent).1

/-- The day that takes an event is not of the calendar's last date. -/
theorem Recorded.lt_last (h : Recorded s user goal e v p d opened next r v')
    (days : v.store.DaysIn zones user.id goal) (zone : user.zone ∈ zones)
    (coherent : v.slot.Coherent v.store user.id goal) : r.day.date < Date.last := by
  rw [h.applied.grows.date]
  exact (h.taken.bounded h.placed days zone coherent).1.lt_last

theorem Recorded.daysIn (h : Recorded s user goal e v p d opened next r v')
    (days : v.store.DaysIn zones user.id goal) (zone : user.zone ∈ zones)
    (coherent : v.slot.Coherent v.store user.id goal) : v'.store.DaysIn zones user.id goal := by
  intro date d' hd'
  by_cases same : date = d.date
  · rw [same, h.findDay_self coherent, Option.some.injEq] at hd'
    obtain ⟨bounded, hzone⟩ := h.taken.bounded h.placed days zone coherent
    have grows := h.applied.grows
    rw [← hd']
    refine ⟨⟨?_, ?_⟩, grows.zone ▸ hzone⟩
    · rw [grows.zone, grows.date, grows.starts]
      exact bounded.starts
    · rw [grows.zone, grows.date, grows.ends]
      exact bounded.ends
  · rw [h.findDay_of_ne coherent fun key => same key.2.2] at hd'
    exact days _ _ hd'

end Recorded

/-! ## Merges and runs -/

section Moved

variable {s : Settings} {user : User} {goal : Id} {e : UsageEvent} {v v' : Scope} {zones : List Zone}

theorem MemoryStore.IsLast.congr {m m' : MemoryStore} {user goal : Id} {last : Option Day}
    (h : m.IsLast user goal last) (days : ∀ date, m'.findDay user goal date = m.findDay user goal date) :
    m'.IsLast user goal last := by
  cases last with
  | none => exact fun date => (days date).trans (h date)
  | some c => exact ⟨(days _).trans h.1, fun hd => h.2 ((days _).symm.trans hd)⟩

/-- A merge leaves the last day in a loaded slot. -/
theorem Moved.latest (h : Moved s user goal e v v') (compatible : Compatible zones)
    (days : v.store.DaysIn zones user.id goal) (zone : user.zone ∈ zones)
    (latest : v.slot.Latest v.store user.id goal) : v'.slot.Latest v'.store user.id goal := by
  have last := Scope.load_isLast latest
  have coherent := Scope.load_coherent latest.coherent
  cases h with
  | stayed hdays slot =>
    have same := MemoryStore.findDay_congr hdays user.id goal
    rcases slot with slot | slot
    · rw [slot]
      exact ⟨fun loaded => (latest.last loaded).congr same, latest.empty⟩
    · rw [slot]
      exact ⟨fun _ => last.congr same, fun unloaded => by simp at unloaded⟩
  | recorded recorded hdays slot =>
    have isLast := recorded.isLast compatible days zone last coherent
    refine ⟨fun _ => ?_, fun unloaded => ?_⟩
    · rw [slot.1]
      exact isLast.congr (MemoryStore.findDay_congr hdays user.id goal)
    · rw [slot.2, recorded.slot] at unloaded
      split at unloaded
      · simp at unloaded
      · cases unloaded

theorem Moved.daysIn (h : Moved s user goal e v v') (days : v.store.DaysIn zones user.id goal)
    (zone : user.zone ∈ zones) (coherent : v.slot.Coherent v.store user.id goal) :
    v'.store.DaysIn zones user.id goal := by
  intro date d hd
  cases h with
  | stayed hdays =>
    rw [MemoryStore.findDay_congr hdays] at hd
    exact days _ _ hd
  | recorded recorded hdays =>
    rw [MemoryStore.findDay_congr hdays] at hd
    exact recorded.daysIn days zone (Scope.load_coherent coherent) _ _ hd

/-- The days of other users and goals stay as they were. -/
theorem Moved.daysIn_of_ne (h : Moved s user goal e v v')
    (coherent : v.slot.Coherent v.store user.id goal) {user' goal' : Id}
    (hne : (user', goal') ≠ (user.id, goal)) (days : v.store.DaysIn zones user' goal') :
    v'.store.DaysIn zones user' goal' := by
  intro date d hd
  rw [h.findDay_of_ne coherent hne] at hd
  exact days _ _ hd

/-- A merge keeps every stored day, which may have grown. -/
theorem Moved.grows (h : Moved s user goal e v v') (compatible : Compatible zones)
    (days : v.store.DaysIn zones user.id goal) (latest : v.slot.Latest v.store user.id goal)
    {user' goal' : Id} {date : Date} {old : Day}
    (hold : v.store.findDay user' goal' date = some old) :
    ∃ new, v'.store.findDay user' goal' date = some new ∧ old.Grows new := by
  cases h with
  | stayed hdays => exact ⟨old, (MemoryStore.findDay_congr hdays ..).trans hold, .refl old⟩
  | recorded recorded hdays =>
    rw [MemoryStore.findDay_congr hdays]
    exact recorded.grows compatible days (Scope.load_isLast latest)
      (Scope.load_coherent latest.coherent) hold

end Moved

/-- A user comes with one of the zones that are the user's. -/
def Act.Uses (zones : Id → List Zone) : Act → Prop
  | merge user _ _ => user.zone ∈ zones user.id
  | _ => True

theorem Act.uses_of_not_merge {zones : Id → List Zone} {a : Act} (h : a.isMerge = false) :
    a.Uses zones := by
  cases a with
  | merge => cases h
  | invalidate | restart | outages => trivial

namespace World

/-- The store is in memory, the days of each user have zones that are the
user's, and every slot that was loaded holds the last day. -/
def Orderly (zones : Id → List Zone) (w : World) : Prop :=
  ∃ m, w.store = .memory m ∧ ∀ user goal, m.DaysIn (zones user) user goal ∧
    (w.cache.slot user goal).Latest m user goal

/-- Every stored day stays under its user, goal and date, and may grow. -/
def Retains (w w' : World) : Prop :=
  ∀ user goal date d, (w.store.findDay user goal date).result = .ok (some d) →
    ∃ d', (w'.store.findDay user goal date).result = .ok (some d') ∧ d.Grows d'

/-- The stored days of a user stay under their goals and dates, and may grow. -/
def RetainsOf (user : Id) (w w' : World) : Prop :=
  ∀ goal date d, (w.store.findDay user goal date).result = .ok (some d) →
    ∃ d', (w'.store.findDay user goal date).result = .ok (some d') ∧ d.Grows d'

theorem RetainsOf.of_store {user : Id} {w w' : World} (h : w'.store = w.store) : w.RetainsOf user w' :=
  fun _ _ d hd => ⟨d, h ▸ hd, .refl d⟩

theorem RetainsOf.trans {user : Id} {w₁ w₂ w₃ : World} (h : w₁.RetainsOf user w₂)
    (h' : w₂.RetainsOf user w₃) : w₁.RetainsOf user w₃ := by
  intro goal date d hd
  obtain ⟨d₂, hd₂, grows⟩ := h goal date d hd
  obtain ⟨d₃, hd₃, grows'⟩ := h' goal date d₂ hd₂
  exact ⟨d₃, hd₃, grows.trans grows'⟩

theorem Retains.refl (w : World) : w.Retains w := fun _ => RetainsOf.of_store rfl

theorem Retains.trans {w₁ w₂ w₃ : World} (h : w₁.Retains w₂) (h' : w₂.Retains w₃) : w₁.Retains w₃ :=
  fun user => RetainsOf.trans (h user) (h' user)

variable {s : Settings} {zones : Id → List Zone} {w : World}

theorem orderly_fresh (zones : Id → List Zone) (now : Instant) (nextId : Nat) :
    (fresh now nextId).Orderly zones := by
  refine ⟨{}, rfl, fun user goal => ⟨fun date d hd => ?_, fun loaded => ?_, fun _ => rfl⟩⟩
  · cases hd
  · cases loaded

theorem Orderly.of_memory {m : MemoryStore} (h : w.Orderly zones) (hm : w.store = .memory m)
    (user goal : Id) :
    m.DaysIn (zones user) user goal ∧ (w.cache.slot user goal).Latest m user goal :=
  World.of_memory h hm user goal

theorem Orderly.coherent (h : w.Orderly zones) : w.Coherent := by
  obtain ⟨m, hm, orderly⟩ := h
  exact ⟨m, hm, fun user goal => (orderly user goal).2.coherent⟩

/-- An act keeps the slots and days in order. -/
theorem Orderly.next (h : w.Orderly zones) (compatible : ∀ user, Compatible (zones user)) {a : Act}
    (uses : a.Uses zones) : (a.next s w).Orderly zones := by
  have keyed : w.Keyed fun m user goal slot =>
    m.DaysIn (zones user) user goal ∧ slot.Latest m user goal := h
  refine keyed.next a ?_ ?_ ?_
  · rintro user goal e v v' rfl moved ⟨days, latest⟩
    exact ⟨moved.daysIn days uses latest.coherent, moved.latest (compatible _) days uses latest⟩
  · intro user goal e v v' user' goal' slot moved ⟨_, own⟩ hne ⟨days, latest⟩
    exact ⟨moved.daysIn_of_ne own.coherent hne days, fun loaded =>
      (latest.last loaded).congr (moved.findDay_of_ne own.coherent hne), latest.empty⟩
  · intro m user goal slot ⟨days, _⟩
    exact ⟨days, nofun, fun _ => rfl⟩

/-- An act keeps every stored day of a user with compatible zones. -/
theorem retainsOf_next {m : MemoryStore} (hm : w.store = .memory m) (coherent : w.Coherent) {user : Id}
    {zones : List Zone} (compatible : Compatible zones) (days : ∀ goal, m.DaysIn zones user goal)
    (latest : ∀ goal, (w.cache.slot user goal).Latest m user goal) (a : Act) :
    w.RetainsOf user (a.next s w) := by
  cases a with
  | merge u goal e =>
    obtain ⟨v', moved, at'⟩ := (Work.merge_ending s u goal e hm).moved
    intro goal' date d hd
    rw [hm] at hd
    have hd := Except.ok.inj hd
    rw [Act.next, at'.store]
    by_cases hu : u.id = user
    · subst hu
      obtain ⟨d', hd', grows⟩ := moved.grows compatible (days goal) (latest goal) hd
      exact ⟨d', congrArg Except.ok hd', grows⟩
    · have other : (user, goal') ≠ (u.id, goal) := fun same => hu (Prod.mk.inj same).1.symm
      rw [← moved.findDay_of_ne (coherent.of_memory hm u.id goal) other] at hd
      exact ⟨d, congrArg Except.ok hd, .refl d⟩
  | invalidate | restart | outages => exact .of_store rfl

/-- An act keeps every stored day. -/
theorem Orderly.retains (h : w.Orderly zones) (compatible : ∀ user, Compatible (zones user)) (a : Act) :
    w.Retains (a.next s w) := by
  have coherent := h.coherent
  obtain ⟨m, hm, orderly⟩ := h
  exact fun user => retainsOf_next hm coherent (compatible user) (fun goal => (orderly user goal).1)
    (fun goal => (orderly user goal).2) a

theorem Orderly.after (h : w.Orderly zones) (compatible : ∀ user, Compatible (zones user)) {acts : List Act}
    (uses : ∀ a ∈ acts, a.Uses zones) :
    (w.after s acts).Orderly zones ∧ w.Retains (w.after s acts) := by
  refine after_induction (fun w' => w'.Orderly zones ∧ w.Retains w') ⟨h, .refl w⟩ ?_
  intro a ha w' ⟨orderly, retains⟩
  exact ⟨orderly.next compatible (uses a ha), retains.trans (orderly.retains compatible a)⟩

end World

/-- A day that a merge says it opened was opened at a free date. -/
theorem World.Orderly.findDay_of_opened {s : Settings} {zones : Id → List Zone} {w w' : World}
    (h : w.Orderly zones) (compatible : ∀ user, Compatible (zones user)) {user : User} {goal : Id}
    {e : UsageEvent} {r : Merged} (merged : (Work.merge s user goal e).exec w = (.ok r, w'))
    {a : Activity} (opened : r.outcome = .created a true) :
    (w.store.findDay user.id goal r.day.date).result = .ok none := by
  obtain ⟨m, hm, orderly⟩ := h
  have ending := Work.merge_ending s user goal e hm
  rw [merged] at ending
  obtain ⟨days, own⟩ := orderly user.id goal
  cases ending with
  | merged recorded =>
    cases recorded.applied.opened_of_created opened
    rw [hm, recorded.applied.grows.date]
    exact congrArg Except.ok (recorded.free (compatible user.id) days (Scope.load_isLast own)
      (Scope.load_coherent own.coherent))

/-- However users' zones change and store calls fail: the cached day of a
user and goal is the stored one of the greatest date, every stored day
stays as it was up to growing, and no merge opens a day where one is. -/
theorem usage_retained (zones : Id → List Zone) (compatible : ∀ user, Compatible (zones user))
    (s : Settings) (now : Instant) (nextId : Nat) {acts later : List Act}
    (uses : ∀ a ∈ acts ++ later, a.Uses zones) :
    let w := (World.fresh now nextId).after s acts
    (∀ user goal c, (w.cache.slot user goal).day = some c →
      (w.store.findDay user goal c.date).result = .ok (some c) ∧
      ∀ date d, (w.store.findDay user goal date).result = .ok (some d) → date ≤ c.date) ∧
    w.Retains (w.after s later) ∧
    ∀ user goal e r a w', (Work.merge s user goal e).exec w = (.ok r, w') →
      r.outcome = .created a true → (w.store.findDay user.id goal r.day.date).result = .ok none := by
  intro w
  obtain ⟨orderly, -⟩ := (World.orderly_fresh zones now nextId).after (s := s) compatible
    fun a ha => uses a (List.mem_append_left later ha)
  obtain ⟨-, retains⟩ := orderly.after (s := s) compatible
    fun a ha => uses a (List.mem_append_right acts ha)
  refine ⟨fun user goal c cached => ?_, retains,
    fun user goal e r a w' merged opened => orderly.findDay_of_opened compatible merged opened⟩
  obtain ⟨m, hm, latest⟩ := orderly
  have own := (latest user goal).2
  rw [hm]
  refine ⟨congrArg Except.ok (own.coherent c cached), fun date d hd => ?_⟩
  cases loaded : (w.cache.slot user goal).loaded with
  | true =>
    have last := own.last loaded
    rw [cached] at last
    exact last.2 (Except.ok.inj hd)
  | false =>
    rw [own.empty loaded] at cached
    cases cached

theorem compatible_utc_east14 : Compatible [.utc, .east14] where
  regular := by simp [Zone.regular_utc, Zone.regular_east14]
  near := by
    simp only [List.mem_cons, List.not_mem_nil, or_false, forall_eq_or_imp, forall_eq]
    refine ⟨⟨?_, ?_⟩, ?_, ?_⟩ <;> exact Zone.near_of_fixed (by decide)

/-- A user moves east and back, and the first day is written to once more. -/
theorem usage_retained_of_move : ((World.fresh .epoch 0).after {} [.merge (Sample.user .utc) Sample.goal
      (Sample.event 600)]).Retains (((World.fresh .epoch 0).after {} [.merge (Sample.user .utc)
        Sample.goal (Sample.event 600)]).after {} [.merge (Sample.user .east14) Sample.goal
          (Sample.event 1500), .merge (Sample.user .utc) Sample.goal (Sample.event 610)]) :=
  (usage_retained (fun _ => [.utc, .east14]) (fun _ => compatible_utc_east14) {} .epoch 0
    (by simp [Act.Uses, Sample.user])).2.1

end UsageDiary
