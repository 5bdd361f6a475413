import UsageDiary.Proofs.Cache.Latest

/-!
# Which events find their day

An event is recorded in a stored day that covers its start exactly if the
lookup reaches one (`merged_in_stored_day_iff_finds`): the last day, or, for
an event before it, a day of the date that one of the zones shows which the
search tries (`World.Finds`). A stored day of another zone is passed by, and
a second day is opened over the same hours (`Sample.covering_day_missed`).
-/

namespace UsageDiary

section Found

variable (m : MemoryStore) (user : User) (goal : Id) (t : Instant)

/-- A lookup by the cached last day reaches a stored day that covers the
instant: the last day itself, or, for an instant before it, the day of the
date that a zone shows which the search tries. -/
inductive Found : Option Day → Prop where
  | current {c : Day} (covers : c.covers t = true) : Found (some c)
  | preceding {c : Day} (before : t < c.starts ∧ t < c.ends) {z : Zone} {d : Day}
      (tries : Tries m user.id goal t (Work.firstZones user.zone c.zone) z)
      (shows : z.localDate? t = some d.date) (holds : m.findDay user.id goal d.date = some d)
      (covers : d.covers t = true) : Found (some c)

end Found

variable {user : User} {goal : Id} {t : Instant} {m : MemoryStore} {cached : Option Day}
  {p : Placement}

/-- An instant is placed in a day exactly if the lookup reaches one. -/
theorem Placed.day?_isSome_iff (placed : Placed m user goal t cached p) :
    p.lookup.day?.isSome = true ↔ Found m user goal t cached := by
  -- An instant at the end of the last day, or after it, is neither in it nor before it.
  have notAfter {c : Day} (after : c.ends ≤ t) : ¬ Found m user goal t (some c) := by
    intro found
    cases found with
    | current covers => exact not_lt_of_ge after (Day.covers_def.mp covers).2
    | preceding before => exact not_lt_of_ge after before.2
  cases placed with
  | empty => exact ⟨nofun, nofun⟩
  | current covers => exact ⟨fun _ => .current covers, fun _ => rfl⟩
  | following after => exact ⟨nofun, fun found => absurd found (notAfter after)⟩
  | followingCached after => exact ⟨nofun, fun found => absurd found (notAfter after)⟩
  | preceding before sought beforeEnd =>
    cases sought with
    | found tries shows holds covers =>
      exact ⟨fun _ => .preceding ⟨before, beforeEnd⟩ tries shows holds covers, fun _ => rfl⟩
    | free _ _ _ _ passed =>
      refine ⟨nofun, fun found => ?_⟩
      cases found with
      | current covers => exact absurd (Day.covers_def.mp covers).1 (not_le_of_gt before)
      | preceding _ tries shows holds covers =>
        rw [passed tries shows holds] at covers
        cases covers

/-- An instant finds its day: once the last day was looked up, the lookup
reaches a stored day that covers it. -/
def World.Finds (w : World) (user : User) (goal : Id) (t : Instant) : Prop :=
  ∃ m, w.store = .memory m ∧ Found m user goal t
    (Scope.load ⟨m, w.cache.slot user.id goal, w.nextId⟩ user.id goal).slot.day

theorem World.finds_iff {w : World} (hm : w.store = .memory m) : w.Finds user goal t ↔
    Found m user goal t
      (Scope.load ⟨m, w.cache.slot user.id goal, w.nextId⟩ user.id goal).slot.day :=
  ⟨fun finds => of_memory finds hm, fun found => ⟨m, hm, found⟩⟩

section Recorded

variable {s : Settings} {e : UsageEvent} {v v' : Scope} {d : Day} {opened : Bool} {next : Nat}
  {r : Merged}

theorem Recorded.found_iff (h : Recorded s user goal e v p d opened next r v') :
    Found v.store user goal e.starts v.slot.day ↔ opened = false := by
  rw [← h.placed.day?_isSome_iff]
  cases h.taken with
  | kept hd => simp [hd]
  | opened hnone => simp [hnone]

theorem Recorded.covers_of_kept (h : Recorded s user goal e v p d false next r v') :
    d.covers e.starts = true := by
  cases h.taken with
  | kept hd => exact h.placed.covers hd

/-- An event that opens a day says so. -/
theorem Recorded.not_created_iff (h : Recorded s user goal e v p d opened next r v') :
    (∀ a, r.outcome ≠ .created a true) ↔ opened = false := by
  constructor
  · intro others
    cases opened with
    | false => rfl
    | true =>
      obtain ⟨a, ha⟩ := h.applied.created_of_nil h.taken.nil_of_opened
      exact absurd ha (others a)
  · rintro rfl a ha
    exact Bool.false_ne_true (h.applied.opened_of_created ha)

end Recorded

/-- However users' zones change, slots are emptied and store calls fail: an
event that is merged opens no day exactly if its start finds its day, and
then goes to a day that was stored and covers its start. -/
theorem merged_in_stored_day_iff_finds (s : Settings) (acts : List Act) (now : Instant) (nextId : Nat)
    {user : User} {goal : Id} {e : UsageEvent} {r : Merged}
    (merged : ((Work.merge s user goal e).exec ((World.fresh now nextId).after s acts)).1 = .ok r) :
    let w := (World.fresh now nextId).after s acts
    ((∀ a, r.outcome ≠ .created a true) ↔ w.Finds user goal e.starts) ∧
    (w.Finds user goal e.starts → ∃ d, (w.store.findDay user.id goal r.day.date).result = .ok (some d) ∧
      d.covers e.starts = true ∧ d.Grows r.day) := by
  intro w
  obtain ⟨m, hm, coherent⟩ := World.coherent_after (s := s) now nextId acts
  have ending := Work.merge_ending s user goal e hm
  rw [merged] at ending
  cases ending with
  | merged recorded =>
    have loaded := Scope.load_coherent (v := ⟨m, w.cache.slot user.id goal, w.nextId⟩)
      (coherent user.id goal)
    have finds := (World.finds_iff hm).trans recorded.found_iff
    refine ⟨recorded.not_created_iff.trans finds.symm, fun found => ?_⟩
    cases finds.mp found
    refine ⟨_, ?_, recorded.covers_of_kept, recorded.applied.grows⟩
    rw [show w.store = .memory m from hm, recorded.applied.grows.date]
    exact congrArg Except.ok (recorded.holds_of_kept loaded)

/-- A user moved from east to universal time: the first event is kept in a
day of the eastern zone, the second in one of universal time. -/
def Sample.relocated : World :=
  (World.fresh .epoch 0).after {} [.merge (Sample.user .east14) Sample.goal (Sample.event 900),
    .merge (Sample.user .utc) Sample.goal (Sample.event 3480)]

/-- Back in the east, a late event finds the day that covers it. -/
theorem Sample.finds_back_east : ∃ r, ((Work.merge {} (Sample.user .east14) Sample.goal
      (Sample.event 905)).exec Sample.relocated).1 = .ok r ∧
    Sample.relocated.Finds (Sample.user .east14) Sample.goal (Sample.event 905).starts ∧
    ∃ d, (Sample.relocated.store.findDay ⟨1⟩ ⟨3⟩ r.day.date).result = .ok (some d) ∧
      d.covers (Sample.event 905).starts = true ∧ d.Grows r.day := by
  have extended : ((Work.merge {} (Sample.user .east14) Sample.goal (Sample.event 905)).exec
      Sample.relocated).1.toOption.map (·.outcome.word) = some "extended" := by decide +kernel
  cases merged : ((Work.merge {} (Sample.user .east14) Sample.goal (Sample.event 905)).exec
      Sample.relocated).1 with
  | error stop =>
    rw [merged] at extended
    cases extended
  | ok r =>
    obtain ⟨iff, holds⟩ := merged_in_stored_day_iff_finds _ _ _ _ merged
    have finds := iff.mp fun a ha => by
      simp [merged, Except.toOption, ha, Outcome.word] at extended
    exact ⟨r, rfl, finds, holds finds⟩

/-- In universal time the late event does not find that day, which covers it
all the same: another day is opened. -/
theorem Sample.covering_day_missed : (∀ z ∈ [Zone.utc, Zone.east14], z.Regular) ∧
    ∃ date d r a, (Sample.relocated.store.findDay ⟨1⟩ ⟨3⟩ date).result = .ok (some d) ∧
      d.covers (Sample.event 905).starts = true ∧
      ((Work.merge {} (Sample.user .utc) Sample.goal (Sample.event 905)).exec
        Sample.relocated).1 = .ok r ∧ r.outcome = .created a true ∧ r.day.id ≠ d.id := by
  have missed : ∃ found ∈ (Sample.relocated.store.findDay ⟨1⟩ ⟨3⟩ ⟨20096, by decide, by decide⟩).result.toOption,
      ∃ d ∈ found, ∃ r ∈ ((Work.merge {} (Sample.user .utc) Sample.goal (Sample.event 905)).exec
        Sample.relocated).1.toOption, d.covers (Sample.event 905).starts = true ∧
          r.outcome = .created r.outcome.activity true ∧ r.day.id ≠ d.id := by decide +kernel
  obtain ⟨found, stored, d, rfl, r, merged, covers, created, other⟩ := missed
  exact ⟨compatible_utc_east14.regular, _, d, r, _, mem_toOption.mp stored, covers,
    mem_toOption.mp merged, created, other⟩

end UsageDiary
