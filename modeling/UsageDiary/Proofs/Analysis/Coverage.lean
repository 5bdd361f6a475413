import UsageDiary.Proofs.Analysis.Requests
import UsageDiary.Proofs.Merge.Stored

/-!
# What the stored activities of a user hold

An event that a day takes lies in the day's activities of its device
afterwards, but for a tail shorter than the window for skipping
(`Applied.holdsAt`): it is absorbed by the activity before it only if it
ends less than the window after that one, and the activity stays as it is
then, so that tails do not add up. Days only grow as more is merged, so
what they hold they keep (`World.Steady.retains`).
-/

namespace UsageDiary

/-- An instant lies in an activity of a device in the day. -/
def Day.HoldsAt (device : Option Id) (x : Instant) (d : Day) : Prop :=
  ∃ a ∈ d.activities, a.device = device ∧ a.starts ≤ x ∧ x ≤ a.ends

theorem Day.Grows.holdsAt {d d' : Day} (h : d.Grows d') {device : Option Id} {x : Instant}
    (holds : d.HoldsAt device x) : d'.HoldsAt device x := by
  obtain ⟨a, ha, hdevice, after, before⟩ := holds
  obtain ⟨a', ha', grows⟩ := h.exists_grown ha
  exact ⟨a', ha', grows.device.trans hdevice, grows.starts ▸ after, le_trans before grows.ends⟩

/-- An event that ends in its day lies in the activities of its device
afterwards, apart from a tail shorter than the window for skipping. -/
theorem Applied.holdsAt {s : Settings} {d : Day} {opened : Bool} {e : UsageEvent} {next next' : Nat}
    {r : Merged} (h : Applied s d opened (e.fit d) next r next') (timed : s.Timed) (tidy : d.Tidy s)
    (takes : d.Takes e next) (fits : e.ends ≤ d.ends) {x : Instant} (ordinary : x.Ordinary)
    (after : e.starts ≤ x) (before : x ≤ e.ends) :
    r.day.HoldsAt e.device x ∨ e.ends.nanos - x.nanos < s.skip := by
  have whole : e.fit d = e := UsageEvent.fit_of_le fits
  have nanosAfter := (Instant.le_iff_nanos takes.starts ordinary).mp after
  have nanosBefore := (Instant.le_iff_nanos ordinary takes.ends).mp before
  rw [whole] at h
  cases h with
  | create decided stretched added =>
    have shaped := takes.shaped timed (whole.symm ▸ stretched)
    have le_ends := shaped.le_ends
    have starts_le := shaped.starts_le
    rw [whole] at le_ends starts_le
    obtain ⟨-, rfl⟩ := Day.add_eq added
    refine .inl ⟨_, (Day.perm_insert _ _).mem_iff.mpr List.mem_cons_self, rfl, ?_, ?_⟩
    · rw [Instant.le_iff_nanos shaped.ordinary_starts ordinary]
      omega
    · rw [Instant.le_iff_nanos ordinary shaped.ordinary_ends]
      omega
  | extend decided extended =>
    obtain ⟨last, hlast, rfl, later, -, -⟩ := (takes.decided timed tidy.ordinary (whole.symm ▸ decided)).of_extend
    rw [whole] at hlast later
    obtain ⟨_, hlast', -, longer⟩ := Settings.lt_ends_of_extend decided
    cases hlast.symm.trans hlast'
    have hmem := Day.mem_of_last? hlast
    obtain ⟨-, -, rfl⟩ := Day.extend_eq takes.labelled hmem longer extended
    have device : last.device = e.device := Day.device_of_last? hlast
    exact .inl ⟨{ last with ends := e.ends }, List.mem_map.mpr ⟨last, hmem, if_pos rfl⟩, device,
      le_trans later after, before⟩
  | @absorb last decided =>
    obtain ⟨hlast, later, within⟩ := (takes.decided timed tidy.ordinary (whole.symm ▸ decided)).of_absorb
    rw [whole] at hlast later within
    have hmem := Day.mem_of_last? hlast
    by_cases inside : x ≤ last.ends
    · exact .inl ⟨_, hmem, Day.device_of_last? hlast, le_trans later after, inside⟩
    · rw [Instant.le_iff_nanos ordinary (tidy.ordinary _ hmem).2] at inside
      exact .inr (by omega)

/-! ## The user's days -/

namespace World

/-- An instant lies in a stored activity of a user, goal and device. -/
def HoldsAt (w : World) (user goal : Id) (device : Option Id) (x : Instant) : Prop :=
  ∃ date d, (w.store.findDay user goal date).result = .ok (some d) ∧ d.HoldsAt device x

theorem RetainsOf.holdsAt {user : Id} {w w' : World} (h : w.RetainsOf user w') {goal : Id}
    {device : Option Id} {x : Instant} (holds : w.HoldsAt user goal device x) :
    w'.HoldsAt user goal device x := by
  obtain ⟨date, d, hd, holds⟩ := holds
  obtain ⟨d', hd', grows⟩ := h goal date d hd
  exact ⟨date, d', hd', grows.holdsAt holds⟩

/-- A user keeps a zone: the days are tidy, and a slot that was loaded holds
the last day. -/
structure Steady (s : Settings) (zone : Zone) (user : Id) (w : World) : Prop where
  keeps : w.Keeps [zone] user (Day.Tidy s)
  latest : ∃ m, w.store = .memory m ∧ ∀ goal, (w.cache.slot user goal).Latest m user goal

variable {s : Settings} {zone : Zone} {user : Id} {w w' : World}

theorem steady_fresh (s : Settings) (zone : Zone) (user : Id) (now : Instant) (nextId : Nat) :
    (fresh now nextId).Steady s zone user :=
  ⟨keeps_fresh .., {}, rfl, fun _ => ⟨nofun, fun _ => rfl⟩⟩

/-- Only the store, the cache and the next id matter for it. -/
theorem Steady.congr (h : w.Steady s zone user) (store : w'.store = w.store) (cache : w'.cache = w.cache)
    (nextId : w.nextId ≤ w'.nextId) : w'.Steady s zone user := by
  obtain ⟨⟨coherent, ⟨m, hm, numbered⟩, days⟩, latest⟩ := h
  unfold Coherent at coherent
  rw [← store] at coherent hm days latest
  rw [← cache] at coherent latest
  exact ⟨⟨coherent, ⟨m, hm, numbered.mono nextId⟩, days⟩, latest⟩

/-- An act keeps the user's days tidy, and the last one in the slot. -/
theorem Steady.next (h : w.Steady s zone user) (timed : s.Timed) (regular : zone.Regular) {a : Act}
    (plain : a.Plain [zone] user) : (a.next s w).Steady s zone user := by
  have compatible := compatible_singleton regular
  obtain ⟨m, hm, latest⟩ := h.latest
  obtain ⟨days, -⟩ := of_memory h.keeps.days hm
  have keyed : w.Keyed fun m u goal slot => slot.Coherent m u goal ∧
      (u = user → m.DaysIn [zone] u goal ∧ slot.Latest m u goal) :=
    ⟨m, hm, fun u goal => ⟨h.keeps.coherent.of_memory hm u goal, by
      rintro rfl
      exact ⟨days goal, latest goal⟩⟩⟩
  have after := keyed.next (s := s) a ?_ ?_ ?_
  · obtain ⟨m', hm', all⟩ := after
    exact ⟨h.keeps.tidy timed compatible.regular plain, m', hm', fun goal => ((all user goal).2 rfl).2⟩
  · rintro u goal e v v' rfl moved ⟨coherent, own⟩
    refine ⟨moved.coherent coherent, fun hu => ?_⟩
    obtain ⟨days, latest⟩ := own hu
    have zone := (plain hu).1
    exact ⟨moved.daysIn days zone coherent, moved.latest compatible days zone latest⟩
  · rintro u goal e v v' user' goal' slot moved ⟨coherent, -⟩ hne ⟨other, own⟩
    refine ⟨moved.coherent_of_ne coherent hne other, fun hu => ?_⟩
    obtain ⟨days, latest⟩ := own hu
    exact ⟨moved.daysIn_of_ne coherent hne days, fun loaded =>
      (latest.last loaded).congr (moved.findDay_of_ne coherent hne), latest.empty⟩
  · rintro m u goal slot ⟨-, own⟩
    refine ⟨Slot.coherent_empty _ _ _, fun hu => ⟨(own hu).1, fun loaded => ?_, fun _ => rfl⟩⟩
    cases loaded

/-- An act keeps what the user's days hold. -/
theorem Steady.retains (h : w.Steady s zone user) (regular : zone.Regular) (a : Act) :
    w.RetainsOf user (a.next s w) := by
  obtain ⟨m, hm, latest⟩ := h.latest
  obtain ⟨days, -⟩ := of_memory h.keeps.days hm
  exact retainsOf_next hm h.keeps.coherent (compatible_singleton regular) days latest a

end World
end UsageDiary
