import UsageDiary.Proofs.Cache.Coherent
import UsageDiary.Proofs.Day.Labels
import UsageDiary.Proofs.Support
import UsageDiary.Proofs.Week.Entries

/-!
# Ids are given out once

Days, their activities and weeks take their ids from a supply that only
moves on, so in every world that a run reaches the ids of stored days lie
before the next one (`World.numbered_after`), and so do those of stored weeks
and of the days entered in them (`World.weeksNumbered_after`). A day that is
opened bears an id that no stored day has (`MemoryStore.Numbered.id_ne`). This
holds whatever the zones are and whichever store calls fail.
-/

namespace UsageDiary

/-- A day and its activities bear ids drawn before `next`, and no two of
the activities the same. -/
structure Day.Numbered (next : Nat) (d : Day) : Prop where
  drawn : d.id.value < next
  labelled : d.Labelled next

/-- The stored days bear ids drawn before `next`. -/
def MemoryStore.Numbered (m : MemoryStore) (next : Nat) : Prop := ∀ d ∈ m.days, d.Numbered next

/-- A week and the days entered in it bear ids drawn before `next`. -/
structure Week.Numbered (next : Nat) (w : Week) : Prop where
  drawn : w.id.value < next
  days : ∀ p ∈ w.days, p.2.value < next

/-- The stored weeks bear ids drawn before `next`, and so do their days. -/
def MemoryStore.WeeksNumbered (m : MemoryStore) (next : Nat) : Prop := ∀ w ∈ m.weeks, w.Numbered next

section Numbered

variable {s : Settings} {user : User} {goal : Id} {e : UsageEvent} {v v' : Scope} {p : Placement}
  {d : Day} {opened : Bool} {next next' : Nat} {r : Merged} {m : MemoryStore}

theorem Day.Numbered.mono (h : d.Numbered next) (hle : next ≤ next') : d.Numbered next' :=
  ⟨Nat.lt_of_lt_of_le h.drawn hle, h.labelled.mono hle⟩

theorem MemoryStore.Numbered.mono (h : m.Numbered next) (hle : next ≤ next') : m.Numbered next' :=
  fun d hd => (h d hd).mono hle

theorem MemoryStore.WeeksNumbered.mono (h : m.WeeksNumbered next) (hle : next ≤ next') :
    m.WeeksNumbered next' := fun w hw =>
  ⟨Nat.lt_of_lt_of_le (h w hw).drawn hle, fun p hp => Nat.lt_of_lt_of_le ((h w hw).days p hp) hle⟩

theorem Day.Numbered.ids (h : d.Numbered next) : Id.Drawn next d.ids := by
  intro id hid
  rcases List.mem_cons.mp hid with rfl | hid
  · exact h.drawn
  · obtain ⟨a, ha, rfl⟩ := List.mem_map.mp hid
    exact h.labelled.drawn a ha

theorem Week.Numbered.ids {w : Week} (h : w.Numbered next) : Id.Drawn next w.ids := by
  intro id hid
  rcases List.mem_cons.mp hid with rfl | hid
  · exact h.drawn
  · obtain ⟨p, hp, rfl⟩ := List.mem_map.mp hid
    exact h.days p hp

theorem MemoryStore.drawn_of (days : ∀ d ∈ m.days, Id.Drawn next d.ids)
    (weeks : m.WeeksNumbered next) : Id.Drawn next m.ids := by
  intro id hid
  rcases mem_ids.mp hid with ⟨d, hd, hid⟩ | ⟨w, hw, hid⟩
  · exact days d hd id hid
  · exact (weeks w hw).ids id hid

theorem MemoryStore.Numbered.ids (days : m.Numbered next)
    (weeks : m.WeeksNumbered next) : Id.Drawn next m.ids :=
  drawn_of (fun d hd => (days d hd).ids) weeks

theorem Slot.drawn_of {slot : Slot} (h : ∀ d, slot.day = some d → Id.Drawn next d.ids) :
    Id.Drawn next slot.ids := by
  unfold ids
  cases hd : slot.day with
  | none => exact .of_nil rfl
  | some d => exact h d hd

theorem Slot.Coherent.ids {user goal : Id} {slot : Slot}
    (h : slot.Coherent m user goal) (days : m.Numbered next) : Id.Drawn next slot.ids :=
  Slot.drawn_of fun d hd => (days d (MemoryStore.mem_of_findDay (h d hd))).ids

/-- No stored day has the next id. -/
theorem MemoryStore.Numbered.id_ne (h : m.Numbered next) {user goal : Id} {date : Date}
    (stored : m.findDay user goal date = some d) : d.id ≠ ⟨next⟩ := by
  intro same
  have drawn := (h d (mem_of_findDay stored)).drawn
  rw [same] at drawn
  exact Nat.lt_irrefl next drawn

namespace Recorded

theorem id_of_opened (h : Recorded s user goal e v p d true next r v') : r.day.id = ⟨v.nextId⟩ := by
  rw [h.applied.grows.id, (Day.create_eq_ok h.opens.2).2.2]

/-- The day that takes an event is numbered. -/
theorem numbered_taken (h : Recorded s user goal e v p d opened next r v')
    (coherent : v.slot.Coherent v.store user.id goal) (numbered : v.store.Numbered v.nextId) :
    d.Numbered next := by
  cases opened with
  | false =>
    have stored := MemoryStore.mem_of_findDay (h.holds_of_kept coherent)
    exact (numbered d stored).mono h.taken.le
  | true =>
    cases h.taken with
    | opened _ opens =>
      rw [(Day.create_eq_ok opens).2.2]
      exact ⟨Nat.lt_succ_self _, .of_nil rfl⟩

/-- The recorded day is numbered. -/
theorem drawn (h : Recorded s user goal e v p d opened next r v')
    (coherent : v.slot.Coherent v.store user.id goal) (numbered : v.store.Numbered v.nextId) :
    r.day.Numbered v'.nextId := by
  have taken := h.numbered_taken coherent numbered
  refine ⟨?_, taken.labelled.applied h.applied⟩
  rw [h.applied.grows.id]
  exact (taken.mono h.applied.le).drawn

theorem numbered (h : Recorded s user goal e v p d opened next r v')
    (coherent : v.slot.Coherent v.store user.id goal) (numbered : v.store.Numbered v.nextId) :
    v'.store.Numbered v'.nextId := by
  have day := h.drawn coherent numbered
  have old := numbered.mono h.le
  intro d' hd'
  rw [h.store] at hd'
  split at hd'
  · rcases MemoryStore.mem_saveDay hd' with rfl | hd'
    · exact day
    · exact old d' hd'
  · exact old d' hd'

end Recorded

theorem Finished.le {attaches late : Bool} (h : Finished attaches late d v v') : v.nextId ≤ v'.nextId := by
  cases h with
  | skipped => exact Nat.le_refl _
  | attached _ attached => exact attached.le_next

theorem Attached.weeksNumbered {m' : MemoryStore} (h : Attached m d next m' next') (drawn : d.id.value < next)
    (weeks : m.WeeksNumbered next) : m'.WeeksNumbered next' := by
  cases h with
  | created =>
    intro w hw
    rcases MemoryStore.mem_saveWeek hw with rfl | hw
    · refine ⟨Nat.lt_succ_self _, fun p hp => ?_⟩
      rw [List.mem_singleton.mp hp]
      exact Nat.lt_succ_of_lt drawn
    · exact weeks.mono (Nat.le_succ _) w hw
  | changed found =>
    intro w hw
    rcases MemoryStore.mem_saveWeek hw with rfl | hw
    · have old := weeks _ (MemoryStore.mem_of_findWeek found)
      refine ⟨old.drawn, fun p hp => ?_⟩
      rcases Week.mem_put hp with rfl | hp
      · exact drawn
      · exact old.days p hp
    · exact weeks w hw
  | same => exact weeks

theorem Recorded.weeksNumbered (h : Recorded s user goal e v p d opened next r v')
    (weeks : v.store.WeeksNumbered v.nextId) : v'.store.WeeksNumbered v'.nextId :=
  fun w hw => weeks.mono h.le w (h.weeks ▸ hw)

/-- A merge leaves the stored weeks numbered. -/
theorem Ending.weeksNumbered {w w' : World} {result : Except Stop Merged}
    (h : Ending s user goal e w v result w') (coherent : v.slot.Coherent v.store user.id goal)
    (numbered : v.store.Numbered v.nextId) (weeks : v.store.WeeksNumbered v.nextId) :
    ∃ m, w'.store = .memory m ∧ m.WeeksNumbered w'.nextId := by
  have loaded := Scope.load_coherent coherent
  cases h with
  | unloaded _ h => exact ⟨_, h.store, h.nextId ▸ weeks⟩
  | unrecorded _ h le => exact ⟨_, h.store, h.nextId ▸ weeks.mono le⟩
  | unattached recorded _ h le => exact ⟨_, h.store, h.nextId ▸ (recorded.weeksNumbered weeks).mono le⟩
  | merged recorded finished h =>
    refine ⟨_, h.store, h.nextId ▸ ?_⟩
    cases finished with
    | skipped => exact recorded.weeksNumbered weeks
    | attached _ attached =>
      exact attached.weeksNumbered (recorded.drawn loaded numbered).drawn (recorded.weeksNumbered weeks)

/-- A merge leaves the stored days numbered. -/
theorem Ending.numbered {w w' : World} {result : Except Stop Merged}
    (h : Ending s user goal e w v result w') (coherent : v.slot.Coherent v.store user.id goal)
    (numbered : v.store.Numbered v.nextId) :
    ∃ m, w'.store = .memory m ∧ m.Numbered w'.nextId := by
  have loaded := Scope.load_coherent coherent
  cases h with
  | unloaded _ h => exact ⟨_, h.store, h.nextId ▸ numbered⟩
  | unrecorded _ h le => exact ⟨_, h.store, h.nextId ▸ numbered.mono le⟩
  | unattached recorded _ h le =>
    exact ⟨_, h.store, h.nextId ▸ (recorded.numbered loaded numbered).mono le⟩
  | merged recorded finished h =>
    refine ⟨_, h.store, fun d hd => ?_⟩
    rw [finished.days] at hd
    rw [h.nextId]
    exact ((recorded.numbered loaded numbered) d hd).mono finished.le

end Numbered

namespace World

variable {s : Settings}

/-- The stored days bear ids drawn before the next one. -/
def Numbered (w : World) : Prop := ∃ m, w.store = .memory m ∧ m.Numbered w.nextId

theorem Numbered.of_memory {w : World} {m : MemoryStore} (h : w.Numbered)
    (hm : w.store = .memory m) : m.Numbered w.nextId := World.of_memory h hm

theorem numbered_fresh (now : Instant) (nextId : Nat) : (fresh now nextId).Numbered :=
  ⟨{}, rfl, fun d hd => by cases hd⟩

theorem Numbered.next {w : World} (h : w.Numbered) (coherent : w.Coherent) (a : Act) :
    (a.next s w).Numbered := by
  obtain ⟨m, hm, numbered⟩ := h
  cases a with
  | merge user goal e =>
    exact (Work.merge_ending s user goal e hm).numbered (coherent.of_memory hm user.id goal) numbered
  | invalidate | restart | outages => exact ⟨m, hm, numbered⟩

/-- The stored weeks bear ids drawn before the next one, and so do the days
entered in them. -/
def WeeksNumbered (w : World) : Prop := ∃ m, w.store = .memory m ∧ m.WeeksNumbered w.nextId

theorem WeeksNumbered.of_memory {w : World} {m : MemoryStore} (h : w.WeeksNumbered)
    (hm : w.store = .memory m) : m.WeeksNumbered w.nextId := World.of_memory h hm

theorem WeeksNumbered.next {w : World} (h : w.WeeksNumbered) (coherent : w.Coherent) (numbered : w.Numbered)
    (a : Act) : (a.next s w).WeeksNumbered := by
  obtain ⟨m, hm, weeks⟩ := h
  cases a with
  | merge user goal e =>
    exact (Work.merge_ending s user goal e hm).weeksNumbered (coherent.of_memory hm user.id goal)
      (numbered.of_memory hm) weeks
  | invalidate | restart | outages => exact ⟨m, hm, weeks⟩

theorem numbered_after (now : Instant) (nextId : Nat) (acts : List Act) :
    ((fresh now nextId).after s acts).Numbered :=
  (after_induction (fun w => w.Coherent ∧ w.Numbered)
    ⟨coherent_fresh now nextId, numbered_fresh now nextId⟩
    fun a _ _ ⟨coherent, numbered⟩ => ⟨coherent.next a, numbered.next coherent a⟩).2

theorem weeksNumbered_after (now : Instant) (nextId : Nat) (acts : List Act) :
    ((fresh now nextId).after s acts).WeeksNumbered :=
  (after_induction (fun w => w.Coherent ∧ w.Numbered ∧ w.WeeksNumbered)
    ⟨coherent_fresh now nextId, numbered_fresh now nextId, {}, rfl, fun w hw => by cases hw⟩
    fun a _ _ ⟨coherent, numbered, weeks⟩ =>
      ⟨coherent.next a, numbered.next coherent a, weeks.next coherent numbered a⟩).2.2

end World
end UsageDiary
