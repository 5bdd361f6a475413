import Mathlib.Logic.Basic
import UsageDiary.Proofs.Cache.Latest
import UsageDiary.Proofs.Ids

/-!
# Merges that stop

A merge that stops recorded nothing (`World.Unchanged`), or it saved a day
whose week then was refused (`World.SavedOnly`), and never both
(`stopped_merge_unchanged_xor_saved`). In the second case the day is cached
with its mark, unless the event came before the cached day, so that the next
merge attaches it.

Which of the two it is depends on whether the event was persisted: the day
is then another one than before (`Applied.day_ne`), and otherwise the slot
has it already (`Recorded.slot_of_not_persisted`).
-/

namespace UsageDiary

/-! ## Two ways to stop -/

/-- An instant comes before the day of a slot. -/
def Slot.IsAfter (slot : Slot) (t : Instant) : Prop :=
  ∃ c, slot.day = some c ∧ t < c.starts ∧ t < c.ends

/-- Caching the day that a slot has changes nothing. -/
theorem Slot.replace_of_day {slot : Slot} {d : Day} (cached : slot.day = some d)
    (loaded : slot.loaded = true) : slot.replace d = slot := by
  obtain ⟨day, isLoaded, pending⟩ := slot
  cases cached
  cases loaded
  simp [replace]

namespace World

/-- The slot of a user and goal, with the last day looked up unless it was
before. -/
def loadedSlot (w : World) (user goal : Id) : Slot :=
  let slot := w.cache.slot user goal
  match (w.store.findLast user goal).result with
  | .ok last => if slot.loaded then slot else slot.load last
  | .error _ => slot

/-- Nothing was recorded: the store is as it was, and so is the slot of the
user and goal, once the last day was looked up or as long as it could not be. -/
structure Unchanged (w : World) (user goal : Id) (w' : World) : Prop where
  store : w'.store = w.store
  slot : w'.cache.slot user goal = w.loadedSlot user goal ∨
    (w.cache.slot user goal).loaded = false ∧ w'.cache.slot user goal = w.cache.slot user goal

/-- A day was saved, which was not stored so before, and attaching it to its
week stopped. No other day and no week was changed. The day is cached and
marked, unless the event came before the cached day. -/
structure SavedOnly (w : World) (user goal : Id) (t : Instant) (stop : Stop) (w' : World) (d : Day) :
    Prop where
  refused : ∃ w₁, w₁.store = w'.store ∧ (Work.attachDay d).exec w₁ = (.error stop, w')
  saved : (w'.store.findDay user goal d.date).result = .ok (some d)
  changed : (w.store.findDay user goal d.date).result ≠ .ok (some d)
  others : ∀ {user' goal' : Id} {date : Date}, ¬ (user' = user ∧ goal' = goal ∧ date = d.date) →
    (w'.store.findDay user' goal' date).result = (w.store.findDay user' goal' date).result
  weeks : ∀ user' goal' start, (w'.store.findWeek user' goal' start).result =
    (w.store.findWeek user' goal' start).result
  late : (w.loadedSlot user goal).IsAfter t → w'.cache.slot user goal = w.loadedSlot user goal
  cached : ¬ (w.loadedSlot user goal).IsAfter t → w'.cache.slot user goal = ⟨some d, true, true⟩

theorem loadedSlot_eq {w : World} {m : MemoryStore} (hm : w.store = .memory m) (user goal : Id) :
    w.loadedSlot user goal = (Scope.load ⟨m, w.cache.slot user goal, w.nextId⟩ user goal).slot := by
  unfold loadedSlot
  rw [hm]
  rfl

/-- The two do not go together: the saved day was not stored before. -/
theorem SavedOnly.not_unchanged {w w' : World} {user goal : Id} {t : Instant} {stop : Stop} {d : Day}
    (h : w.SavedOnly user goal t stop w' d) : ¬ w.Unchanged user goal w' := by
  intro unchanged
  have saved := h.saved
  rw [unchanged.store] at saved
  exact h.changed saved

end World

/-! ## What recording leaves -/

section Recorded

variable {s : Settings} {user : User} {goal : Id} {e : UsageEvent} {v v' : Scope} {p : Placement}
  {d : Day} {opened : Bool} {next : Nat} {r : Merged}

theorem Placed.isLate_iff {m : MemoryStore} {t : Instant} {slot : Slot}
    (placed : Placed m user goal t slot.day p) : p.lookup.isLate = true ↔ slot.IsAfter t := by
  unfold Slot.IsAfter
  obtain ⟨cached, hcached⟩ : ∃ cached, slot.day = cached := ⟨_, rfl⟩
  rw [hcached] at placed ⊢
  -- An instant at the end of the last day, or after it, does not come before it.
  have notAfter {c : Day} (after : c.ends ≤ t) : ¬ ∃ c', some c = some c' ∧ t < c'.starts ∧ t < c'.ends := by
    rintro ⟨c', same, -, before⟩
    cases same
    exact not_lt_of_ge after before
  cases placed with
  | empty =>
    refine ⟨nofun, ?_⟩
    rintro ⟨c', same, -⟩
    cases same
  | current covers =>
    refine ⟨nofun, ?_⟩
    rintro ⟨c', same, before, -⟩
    cases same
    exact absurd (Day.covers_def.mp covers).1 (not_le_of_gt before)
  | following after => exact ⟨nofun, fun h => absurd h (notAfter after)⟩
  | followingCached after => exact ⟨nofun, fun h => absurd h (notAfter after)⟩
  | preceding before sought beforeEnd =>
    refine ⟨fun _ => ⟨_, rfl, before, beforeEnd⟩, fun _ => ?_⟩
    cases sought <;> rfl

namespace Recorded

/-- A stored day that takes an event in time is the cached one. -/
theorem cached_of_kept (h : Recorded s user goal e v p d false next r v')
    (inTime : p.lookup.isLate = false) : v.slot.day = some d ∧ p.lookup = .current d := by
  cases h.taken with
  | kept hd =>
    have placed := h.placed
    obtain ⟨cached, hcached⟩ : ∃ cached, v.slot.day = cached := ⟨_, rfl⟩
    rw [hcached] at placed ⊢
    cases placed with
    | empty => cases hd
    | current => cases hd; exact ⟨rfl, rfl⟩
    | following => cases hd
    | followingCached => cases hd
    | preceding _ sought => cases sought <;> cases inTime

/-- An event that is not persisted leaves the slot as it was. -/
theorem slot_of_not_persisted (h : Recorded s user goal e v p d opened next r v')
    (loaded : v.slot.loaded = true) (kept : r.outcome.isPersisted = false) : v'.slot = v.slot := by
  rw [h.slot]
  split
  · rfl
  · next inTime =>
    cases opened with
    | true =>
      rw [h.applied.isPersisted_of_nil h.taken.nil_of_opened] at kept
      cases kept
    | false =>
      obtain ⟨cached, -⟩ := h.cached_of_kept (by simpa using inTime)
      rw [h.applied.day_of_not_persisted kept]
      exact Slot.replace_of_day cached loaded

/-- A day that is cached and still to be attached is marked. -/
theorem slot_of_attaches (h : Recorded s user goal e v p d opened next r v')
    (coherent : v.slot.Coherent v.store user.id goal) (numbered : v.store.Numbered v.nextId)
    (inTime : p.lookup.isLate = false) (attaches : p.lookup.attaches v.slot = true) :
    v'.slot = ⟨some r.day, true, true⟩ := by
  rw [h.slot, if_neg (by simp [inTime]), Slot.replace]
  have marked : (v.slot.weekPending || v.slot.day.map (·.id) != some r.day.id) = true := by
    cases opened with
    | false =>
      obtain ⟨-, current⟩ := h.cached_of_kept inTime
      rw [current] at attaches
      rw [show v.slot.weekPending = true from attaches, Bool.true_or]
    | true =>
      have other : v.slot.day.map (·.id) ≠ some r.day.id := by
        intro same
        obtain ⟨c, hc, hid⟩ := Option.map_eq_some_iff.mp same
        exact numbered.id_ne (coherent c hc) (hid.trans h.id_of_opened)
      rw [bne_iff_ne.mpr other, Bool.or_true]
  rw [marked]

/-- A day that an event is persisted in was not stored so before. -/
theorem findDay_ne_of_persisted (h : Recorded s user goal e v p d opened next r v')
    (coherent : v.slot.Coherent v.store user.id goal) (numbered : v.store.Numbered v.nextId)
    (persisted : r.outcome.isPersisted = true) :
    v.store.findDay user.id goal d.date ≠ some r.day := by
  cases opened with
  | false =>
    rw [h.holds_of_kept coherent]
    intro same
    exact h.applied.day_ne (h.numbered_taken coherent numbered).labelled persisted
      (Option.some.inj same).symm
  | true => exact fun stored => numbered.id_ne stored h.id_of_opened

end Recorded
end Recorded

/-! ## Merges that stop -/

/-- A merge that stops recorded nothing, or saved a day whose week was
refused. -/
theorem Ending.unchanged_or_savedOnly {s : Settings} {user : User} {goal : Id} {e : UsageEvent}
    {w w' : World} {m : MemoryStore} {stop : Stop} (hm : w.store = .memory m)
    (h : Ending s user goal e w ⟨m, w.cache.slot user.id goal, w.nextId⟩ (.error stop) w')
    (coherent : (w.cache.slot user.id goal).Coherent m user.id goal) (numbered : m.Numbered w.nextId) :
    w.Unchanged user.id goal w' ∨ ∃ d, w.SavedOnly user.id goal e.starts stop w' d := by
  have loadedSlot := w.loadedSlot_eq hm user.id goal
  have loaded := Scope.load_coherent (v := ⟨m, w.cache.slot user.id goal, w.nextId⟩) coherent
  cases h with
  | unloaded _ h =>
    refine .inl ⟨h.store.trans hm.symm, ?_⟩
    rw [h.slot, loadedSlot]
    cases isLoaded : (w.cache.slot user.id goal).loaded with
    | true => exact .inl (by simp [Scope.load, isLoaded])
    | false => exact .inr ⟨rfl, rfl⟩
  | unrecorded _ h => exact .inl ⟨h.store.trans hm.symm, .inl (h.slot.trans loadedSlot.symm)⟩
  | @unattached p d opened next _ r v' _ _ recorded _ h _ refused =>
    cases persisted : r.outcome.isPersisted with
    | false =>
      refine .inl ⟨h.store.trans ?_, .inl ?_⟩
      · rw [hm, recorded.store, persisted]
        rfl
      · rw [h.slot, loadedSlot]
        exact recorded.slot_of_not_persisted (Scope.load_loaded ..) persisted
    | true =>
      have date := recorded.applied.grows.date
      obtain ⟨w₁, hw₁, stops⟩ := refused.stops
      refine .inr ⟨r.day, ⟨w₁, hw₁.trans h.store.symm, stops⟩, ?_, ?_, fun other => ?_, ?_, ?_, ?_⟩
      · rw [h.store, date]
        exact congrArg Except.ok (recorded.findDay_self loaded)
      · rw [hm, date]
        exact fun same => recorded.findDay_ne_of_persisted loaded numbered persisted (Except.ok.inj same)
      · rw [h.store, hm]
        exact congrArg Except.ok (recorded.findDay_of_ne loaded fun same =>
          other ⟨same.1, same.2.1, same.2.2.trans date.symm⟩)
      · intro user' goal' start
        rw [h.store, hm]
        exact congrArg Except.ok (MemoryStore.findWeek_congr recorded.weeks ..)
      · rw [loadedSlot, ← recorded.placed.isLate_iff, h.slot]
        intro late
        rw [recorded.slot, if_pos late]
      · rw [loadedSlot, ← recorded.placed.isLate_iff, h.slot]
        intro inTime
        exact recorded.slot_of_attaches loaded numbered (by simpa using inTime) refused.attaches

/-- Whatever was merged before, by whom and in which zones, and whichever
store calls fail: a merge that stops either recorded nothing or saved one
day whose week was refused. It leaves the slots of other users and goals as
they were. -/
theorem stopped_merge_unchanged_xor_saved (s : Settings) (acts : List Act) (now : Instant)
    (nextId : Nat) {user : User} {goal : Id} {e : UsageEvent} {stop : Stop} {w' : World}
    (stopped : (Work.merge s user goal e).exec ((World.fresh now nextId).after s acts) =
      (.error stop, w')) :
    let w := (World.fresh now nextId).after s acts
    Xor (w.Unchanged user.id goal w') (∃ d, w.SavedOnly user.id goal e.starts stop w' d) ∧
    ∀ user' goal', (user', goal') ≠ (user.id, goal) →
      w'.cache.slot user' goal' = w.cache.slot user' goal' := by
  intro w
  obtain ⟨m, hm, coherent⟩ := World.coherent_after (s := s) now nextId acts
  have numbered := (World.numbered_after (s := s) now nextId acts).of_memory hm
  have ending := Work.merge_ending s user goal e hm
  rw [stopped] at ending
  constructor
  · rcases ending.unchanged_or_savedOnly hm (coherent user.id goal) numbered with h | ⟨d, h⟩
    · exact .inl ⟨h, fun ⟨_, saved⟩ => saved.not_unchanged h⟩
    · exact .inr ⟨⟨d, h⟩, h.not_unchanged⟩
  · obtain ⟨_, -, h⟩ := ending.moved
    exact fun _ _ other => h.others other

/-- A service that cannot save the next week. -/
def Sample.weekless : World :=
  (World.fresh .epoch 0).after {} [.outages [⟨.saveWeek, 0, 1, .database, []⟩]]

/-- The first event is saved in its day, and its week is refused. -/
theorem Sample.saved_without_week : ∃ stop w',
    (Work.merge {} (Sample.user .utc) Sample.goal (Sample.event 600)).exec Sample.weekless =
      (.error stop, w') ∧
    ∃ d, Sample.weekless.SavedOnly ⟨1⟩ ⟨3⟩ (Sample.event 600).starts stop w' d := by
  have stops : (match (Work.merge {} (Sample.user .utc) Sample.goal (Sample.event 600)).exec
        Sample.weekless with
      | (.ok _, _) => false
      | (.error _, w') => w'.store.zones ≠ Sample.weekless.store.zones) = true := by decide +kernel
  rcases exec : (Work.merge {} (Sample.user .utc) Sample.goal (Sample.event 600)).exec
      Sample.weekless with ⟨stop | r, w'⟩
  · rw [exec] at stops
    obtain ⟨⟨unchanged, -⟩ | ⟨saved, -⟩, -⟩ := stopped_merge_unchanged_xor_saved {}
      [.outages [⟨.saveWeek, 0, 1, .database, []⟩]] .epoch 0 exec
    · exact absurd (congrArg Store.zones unchanged.store) (of_decide_eq_true stops)
    · exact ⟨stop, w', rfl, saved⟩
  · rw [exec] at stops
    cases stops

end UsageDiary
