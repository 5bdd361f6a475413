import UsageDiary.Proofs.Merge.Effect
import UsageDiary.Proofs.Support

/-!
# What is kept of a user and goal

Slots, days and weeks are kept by user and goal; what is kept of one such
pair is its share (`World.share`). A query for a pair reads only their share
of the store, the search for the day of an instant included, whose zones to
try come from all days (`MemoryStore.place_only`). A save changes only the
share of the pair saved under (`MemoryStore.only_saveDay_of_ne`).

A merge leaves the share of every other pair as it was
(`Work.share_merge_of_ne`), if the slot of its own pair holds a day of that
pair.
-/

namespace UsageDiary

/-- The days and weeks of a user and goal. -/
def MemoryStore.only (m : MemoryStore) (user goal : Id) : MemoryStore :=
  ⟨m.daysOf user goal, m.weeksOf user goal⟩

/-- What is kept of a user and goal: their slot, days and weeks. -/
structure Share where
  slot : Slot
  stored : MemoryStore
deriving DecidableEq

def Share.rename (ρ : Id → Id) (s : Share) : Share := ⟨s.slot.rename ρ, s.stored.rename ρ⟩

def Share.ids (s : Share) : List Id := s.slot.ids ++ s.stored.ids

/-- What a world keeps of a user and goal, if its store is in memory. -/
def World.share (w : World) (user goal : Id) : Option Share :=
  match w.store with
  | .memory m => some ⟨w.cache.slot user goal, m.only user goal⟩
  | .tables _ => none

namespace Share

variable {ρ σ : Id → Id} {s : Share}

theorem rename_congr (h : ∀ id ∈ s.ids, ρ id = σ id) : s.rename ρ = s.rename σ :=
  congrArg₂ Share.mk (Slot.rename_congr fun id hid => h id (List.mem_append_left _ hid))
    (MemoryStore.rename_congr fun id hid => h id (List.mem_append_right _ hid))

theorem rename_rename (s : Share) : (s.rename ρ).rename σ = s.rename fun id => σ (ρ id) :=
  congrArg₂ Share.mk s.slot.rename_rename s.stored.rename_rename

theorem rename_same (s : Share) : s.rename (fun id => id) = s :=
  congrArg₂ Share.mk s.slot.rename_same s.stored.rename_same

theorem rename_eq_self (h : ∀ id ∈ s.ids, ρ id = id) : s.rename ρ = s :=
  (rename_congr h).trans s.rename_same

end Share

theorem World.At.share {base w : World} {user goal : Id} {v : Scope} (h : base.At user goal v w) :
    w.share user goal = some ⟨v.slot, v.store.only user goal⟩ := by
  unfold World.share
  rw [h.store, ← h.slot]

theorem World.share_of_memory {w : World} {m : MemoryStore} (h : w.store = .memory m) (user goal : Id) :
    w.share user goal = some ⟨w.cache.slot user goal, m.only user goal⟩ := by
  unfold share
  rw [h]

theorem World.memory_of_share {w : World} {user goal : Id} {share : Share}
    (h : w.share user goal = some share) :
    ∃ m, w.store = .memory m ∧ share = ⟨w.cache.slot user goal, m.only user goal⟩ := by
  unfold World.share at h
  split at h
  · next m hm => exact ⟨m, hm, (Option.some.inj h).symm⟩
  · cases h

namespace MemoryStore

variable {m : MemoryStore} {user goal : Id}

/-- The ids in a share are some of those in the store. -/
theorem ids_only_subset (m : MemoryStore) (user goal : Id) : (m.only user goal).ids ⊆ m.ids := by
  intro id hid
  rcases mem_ids.mp hid with ⟨d, hd, hid⟩ | ⟨w, hw, hid⟩
  · exact mem_ids.mpr (.inl ⟨d, List.mem_of_mem_filter hd, hid⟩)
  · exact mem_ids.mpr (.inr ⟨w, List.mem_of_mem_filter hw, hid⟩)

/-! ## Queries -/

theorem daysOf_only (m : MemoryStore) (user goal : Id) : (m.only user goal).daysOf user goal = m.daysOf user goal := by
  unfold only daysOf
  rw [List.filter_filter]
  simp only [Bool.and_self]

theorem findLast_only (m : MemoryStore) (user goal : Id) :
    (m.only user goal).findLast user goal = m.findLast user goal := by
  unfold findLast
  rw [daysOf_only]

theorem findDay_only (m : MemoryStore) (user goal : Id) (date : Date) :
    (m.only user goal).findDay user goal date = m.findDay user goal date := by
  rw [findDay_eq_find?_daysOf, findDay_eq_find?_daysOf, daysOf_only]

theorem findWeek_only (m : MemoryStore) (user goal : Id) (start : Date) :
    (m.only user goal).findWeek user goal start = m.findWeek user goal start := by
  unfold findWeek only weeksOf
  rw [List.find?_filter]
  refine congrArg (List.find? · m.weeks) (funext fun w => ?_)
  simp only [isWeek]
  grind

/-- A search depends on the zones that are not listed yet only as far as
they are those of days it may meet. By induction along the search. -/
theorem seek_congr {m' : MemoryStore} {t : Instant} {toTry unlisted unlisted' : List Zone}
    {free? : Option (Zone × Date)}
    (same : ∀ date, m'.findDay user goal date = m.findDay user goal date)
    (once : unlisted.Nodup) (once' : unlisted'.Nodup)
    (listed : ∀ date d, m.findDay user goal date = some d → (d.zone ∈ unlisted' ↔ d.zone ∈ unlisted)) :
    m'.seek user goal t toTry unlisted' free? = m.seek user goal t toTry unlisted free? := by
  fun_induction seek m user goal t toTry unlisted free? generalizing unlisted' with
  | case1 => rw [seek]
  | case2 => rw [seek]
  | case3 unlisted free? zone rest undated => rw [seek, undated]
  | case4 unlisted free? zone rest date shows d holds covers =>
    rw [seek, shows]
    simp only [same, holds, covers, if_true]
  | case5 unlisted free? zone rest date shows d holds covers hz ih =>
    rw [seek, shows]
    simp only [same, holds, covers, (listed date d holds).mpr hz, if_true]
    refine ih (once.erase _) (once'.erase _) fun date' d' holds' => ?_
    rw [once'.mem_erase_iff, once.mem_erase_iff, listed date' d' holds']
  | case6 unlisted free? zone rest date shows d holds covers hz ih =>
    rw [seek, shows]
    simp only [same, holds, covers]
    rw [if_neg fun h => hz ((listed date d holds).mp h)]
    exact ih once once' listed
  | case7 unlisted free? zone rest date shows holds ih =>
    rw [seek, shows]
    simp only [same, holds]
    exact ih once once' listed

theorem mem_zones {z : Zone} : z ∈ (Store.memory m).zones ↔ ∃ d ∈ m.days, d.zone = z := by
  simp [Store.zones]

/-- An instant is placed by the slot and the days of the user and goal. -/
theorem place_only (m : MemoryStore) (user : User) (goal : Id) (t : Instant) (cached : Option Day) :
    (m.only user.id goal).place user goal t cached = m.place user goal t cached := by
  have searched (first : List Zone) :
      (m.only user.id goal).search user.id goal t first = m.search user.id goal t first := by
    refine seek_congr (m.findDay_only user.id goal) ((nodup_eraseDups _).filter _)
      ((nodup_eraseDups _).filter _) fun date d holds => ?_
    have stored : d ∈ m.days := mem_of_findDay holds
    have kept : d ∈ (m.only user.id goal).days := mem_of_findDay ((m.findDay_only ..).trans holds)
    rw [List.mem_filter, List.mem_filter, mem_zones, mem_zones]
    exact and_congr_left fun _ => iff_of_true ⟨d, kept, rfl⟩ ⟨d, stored, rfl⟩
  unfold place
  simp only [searched]

/-! ## Saves -/

section Saves

variable {d : Day} {week : Week}

theorem only_saveDay_self (m : MemoryStore) (own : d.user = user ∧ d.goal = goal) :
    (m.saveDay d).only user goal = (m.only user goal).saveDay d := by
  obtain ⟨rfl, rfl⟩ := own
  refine congrArg (MemoryStore.mk · (m.weeksOf d.user d.goal)) (filter_put (by simp) (fun b hb => ?_) m.days)
  simp only [isDay, Bool.and_eq_true] at hb
  simp only [hb.1, Bool.and_self]

theorem only_saveDay_of_ne (m : MemoryStore) (ne : ¬ (d.user = user ∧ d.goal = goal)) :
    (m.saveDay d).only user goal = m.only user goal := by
  refine congrArg (MemoryStore.mk · (m.weeksOf user goal)) (filter_put_of_disjoint ?_ (fun b hb => ?_) m.days)
  · simpa using ne
  · simp only [isDay, Bool.and_eq_true, beq_iff_eq] at hb
    simpa [hb.1.1, hb.1.2] using ne

theorem only_saveWeek_self (m : MemoryStore) (own : week.user = user ∧ week.goal = goal) :
    (m.saveWeek week).only user goal = (m.only user goal).saveWeek week := by
  obtain ⟨rfl, rfl⟩ := own
  refine congrArg (MemoryStore.mk (m.daysOf week.user week.goal)) (filter_put (by simp) (fun b hb => ?_) m.weeks)
  simp only [isWeek, Bool.and_eq_true] at hb
  simp only [hb.1, Bool.and_self]

theorem only_saveWeek_of_ne (m : MemoryStore) (ne : ¬ (week.user = user ∧ week.goal = goal)) :
    (m.saveWeek week).only user goal = m.only user goal := by
  refine congrArg (MemoryStore.mk (m.daysOf user goal)) (filter_put_of_disjoint ?_ (fun b hb => ?_) m.weeks)
  · simpa using ne
  · simp only [isWeek, Bool.and_eq_true, beq_iff_eq] at hb
    simpa [hb.1.1, hb.1.2] using ne

end Saves
end MemoryStore

/-! ## The shares of others -/

section Others

variable {s : Settings} {user : User} {goal user' goal' : Id} {e : UsageEvent} {v v' : Scope}
  {p : Placement} {d : Day} {opened attaches late : Bool} {next next' : Nat} {r : Merged}
  {m m' : MemoryStore}

theorem Recorded.only_of_ne (h : Recorded s user goal e v p d opened next r v')
    (own : v.slot.Own user.id goal) (ne : (user', goal') ≠ (user.id, goal)) :
    v'.store.only user' goal' = v.store.only user' goal' := by
  rw [h.store]
  split
  · refine MemoryStore.only_saveDay_of_ne _ fun same => ne ?_
    have key := h.day_key own
    rw [← same.1, ← same.2, key.1, key.2]
  · rfl

theorem Attached.only_of_ne (h : Attached m d next m' next') (ne : (user', goal') ≠ (d.user, d.goal)) :
    m'.only user' goal' = m.only user' goal' := by
  cases h with
  | created => exact MemoryStore.only_saveWeek_of_ne _ fun same => ne (by rw [← same.1, ← same.2])
  | changed found =>
    obtain ⟨huser, hgoal, -⟩ := MemoryStore.key_of_findWeek found
    exact MemoryStore.only_saveWeek_of_ne _ fun same => ne (by rw [← same.1, ← same.2, huser, hgoal])
  | same => rfl

theorem Finished.only_of_ne (h : Finished attaches late d v v') (ne : (user', goal') ≠ (d.user, d.goal)) :
    v'.store.only user' goal' = v.store.only user' goal' := by
  cases h with
  | skipped => rfl
  | attached _ attached => exact attached.only_of_ne ne

/-- However a merge ends, the days and weeks of others are as they were. -/
theorem Ending.only_of_ne {w w' : World} {result : Except Stop Merged}
    (h : Ending s user goal e w v result w') (own : v.slot.Own user.id goal)
    (ne : (user', goal') ≠ (user.id, goal)) :
    ∃ v', w.At user.id goal v' w' ∧ v'.store.only user' goal' = v.store.only user' goal' := by
  have loaded := Scope.load_own own
  cases h with
  | unloaded _ h => exact ⟨_, h, rfl⟩
  | unrecorded _ h => exact ⟨_, h, rfl⟩
  | unattached recorded _ h => exact ⟨_, h, recorded.only_of_ne loaded ne⟩
  | merged recorded finished h =>
    have key := recorded.day_key loaded
    refine ⟨_, h, (finished.only_of_ne ?_).trans (recorded.only_of_ne loaded ne)⟩
    rwa [key.1, key.2]

/-- A merge leaves what is kept of others as it was. -/
theorem Work.share_merge_of_ne (s : Settings) (e : UsageEvent) {w : World} {share : Share}
    (h : w.share user.id goal = some share) (own : share.slot.Own user.id goal)
    (ne : (user', goal') ≠ (user.id, goal)) :
    ((merge s user goal e).exec w).2.share user' goal' = w.share user' goal' := by
  obtain ⟨m, hm, rfl⟩ := World.memory_of_share h
  obtain ⟨v', at', only⟩ := (merge_ending s user goal e hm).only_of_ne own ne
  rw [World.share_of_memory at'.store, World.share_of_memory hm, at'.others ne, only]

end Others
end UsageDiary
