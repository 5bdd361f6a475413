import UsageDiary.Proofs.Cache.Latest
import UsageDiary.Proofs.Ledger.Upkeep
import UsageDiary.Proofs.Merge.Acceptance

/-!
# Merges agree with the ledger

As long as users keep their zones, and these are regular, a service answers
and stores what the ledger does, whatever the order in which events come and
whichever slots are emptied between them (`answers_eq_ledger`).

All stored days of a user are then days of one zone, so an event is never
stuck (`World.Sound.not_stuck_of_fixed`), and the lookup by the cached day
comes to the date that the zone shows (`Recorded.dayOf?`). One merge keeps
the store that of the ledger (`Mirrors.merge`).
-/

namespace UsageDiary

/-! ## One event -/

section Event

variable {s : Settings} {user : User} {goal : Id} {e : UsageEvent} {v v' v'' : Scope}
  {p : Placement} {d : Day} {opened : Bool} {next : Nat} {r : Merged} {l : Ledger}

/-- The day that takes an event is the one that the ledger has for it. -/
theorem Recorded.dayOf? (h : Recorded s user goal e v p d opened next r v')
    (store : v.store = l.store.arranged) (nextId : v.nextId = l.nextId) (regular : user.zone.Regular)
    (days : v.store.DaysIn [user.zone] user.id goal)
    (last : v.store.IsLast user.id goal v.slot.day) (coherent : v.slot.Coherent v.store user.id goal)
    {date : Date} (shows : user.zone.localDate? e.starts = some date) :
    ∃ d₀, l.dayOf? user goal e.starts = some (d₀, opened, next) ∧ d = d₀.arranged := by
  have compatible := compatible_singleton regular
  have zone : user.zone ∈ [user.zone] := List.mem_singleton_self _
  obtain ⟨bounded, hzone⟩ := h.taken.bounded h.placed days zone coherent
  rw [List.mem_singleton] at hzone
  have hdate : date = d.date := (Day.covers_iff (hzone ▸ regular) bounded (hzone ▸ shows)).mp
    (h.taken.covers h.placed compatible.regular days zone coherent)
  unfold Ledger.dayOf?
  rw [shows, Option.bind_eq_bind, Option.bind_some]
  cases opened with
  | false =>
    have holds := h.holds_of_kept coherent
    rw [store, MemoryStore.findDay_arranged, ← hdate] at holds
    obtain ⟨d₀, found, rfl⟩ := Option.map_eq_some_iff.mp holds
    refine ⟨d₀, ?_, rfl⟩
    cases h.taken with
    | kept => simp [found, nextId]
  | true =>
    have free := h.free compatible days last coherent
    rw [store, MemoryStore.findDay_arranged, ← hdate, Option.map_eq_none_iff] at free
    have nil := h.taken.nil_of_opened
    refine ⟨d, ?_, (Day.arranged_of_nil nil).symm⟩
    cases h.taken with
    | opened hnone opens =>
      obtain ⟨hpzone, -⟩ := h.placed.dated hnone days zone coherent
      rw [List.mem_singleton] at hpzone
      have hpdate : p.date = date := by
        rw [hdate, (Day.create_eq_ok opens).2.2]
      rw [hpzone, hpdate, nextId] at opens
      simp [free, opens, nextId]

/-- A day of a date without an entry is attached as the ledger enters it. -/
theorem Attached.eq_enter {m : MemoryStore} {next' : Nat}
    (h : Attached l.store.arranged d.arranged l.nextId m next')
    (free : l.store.entered? d.user d.goal d.date = none) :
    m = (l.enter d).store.arranged ∧ next' = (l.enter d).nextId := by
  unfold Ledger.enter
  cases h with
  | created h =>
    have found : l.store.findWeek d.user d.goal d.date.weekStart = none := h
    rw [found]
    exact ⟨rfl, rfl⟩
  | changed h =>
    have found : l.store.findWeek d.user d.goal d.date.weekStart = some _ := h
    rw [found]
    exact ⟨rfl, rfl⟩
  | same h same =>
    have found : l.store.entered? d.user d.goal d.date = some d.id :=
      (MemoryStore.entered?_of_findWeek h).trans same
    rw [free] at found
    cases found

/-- The day is saved as the ledger saves it. One that stays as it was is
stored already. -/
theorem Recorded.saves {d₀ : Day} {r₀ : Merged}
    (h : Recorded s user goal e v p d₀.arranged opened next r₀.arranged v')
    (store : v.store = l.store.arranged)
    (takes : l.Takes user.id goal d₀ opened next) {next' : Nat}
    (leaves : Ledger.Leaves d₀ next r₀ next') :
    v'.store = (l.store.saveDay r₀.day).arranged := by
  rw [h.store]
  split
  · rw [store, MemoryStore.saveDay_arranged]
    rfl
  · next hnot =>
    rw [Bool.not_eq_true] at hnot
    obtain ⟨huser, hgoal⟩ := takes.key
    cases opened with
    | false =>
      have stored : l.store.findDay d₀.user d₀.goal d₀.date = some d₀ := by
        rw [huser, hgoal]
        exact takes.found
      rw [leaves.unsaved hnot, MemoryStore.saveDay_of_findDay stored, store]
    | true =>
      rw [h.applied.isPersisted_of_nil h.taken.nil_of_opened] at hnot
      cases hnot

/-- What a merge records, the ledger records. -/
theorem Recorded.merge? (h : Recorded s user goal e v p d opened next r v')
    (finished : Finished (p.lookup.attaches v.slot) p.lookup.isLate r.day v' v'')
    (measured : s.Measured) (kept : l.WellKept) (store : v.store = l.store.arranged)
    (nextId : v.nextId = l.nextId) (regular : user.zone.Regular)
    (days : v.store.DaysIn [user.zone] user.id goal)
    (last : v.store.IsLast user.id goal v.slot.day) (coherent : v.slot.Coherent v.store user.id goal)
    {date : Date} (shows : user.zone.localDate? e.starts = some date) :
    ∃ r₀ l', l.merge? s user goal e = some (r₀, l') ∧ r = r₀.arranged ∧
      v''.store = l'.store.arranged ∧ v''.nextId = l'.nextId := by
  obtain ⟨d₀, hday, rfl⟩ := h.dayOf? store nextId regular days last coherent shows
  have takes := Ledger.takes_of_dayOf? hday
  have labelled := kept.labelled_of_takes takes
  have applied := h.applied
  rw [UsageEvent.fit_eq] at applied
  obtain ⟨r₀, hrecord, rfl⟩ := applied.record? measured labelled
  have leaves := Ledger.leaves_of_record? labelled hrecord
  have entry := kept.entered?_of_takes takes leaves
  have saved := h.saves store takes leaves
  obtain ⟨l₁, hl₁⟩ : ∃ l₁ : Ledger, l₁ = ⟨l.store.saveDay r₀.day, v'.nextId⟩ := ⟨_, rfl⟩
  have hmerge : l.merge? s user goal e = some (r₀, if opened then l₁.enter r₀.day else l₁) := by
    rw [hl₁]
    exact Option.bind_eq_some_iff.mpr ⟨_, hday, Option.bind_eq_some_iff.mpr ⟨_, hrecord, rfl⟩⟩
  refine ⟨r₀, _, hmerge, rfl, ?_⟩
  cases opened with
  | false =>
    obtain ⟨hstore, hnext⟩ := finished.eq_of_entered (by rw [saved]; exact entry)
    rw [hstore, hnext, saved, hl₁]
    exact ⟨rfl, rfl⟩
  | true =>
    cases finished with
    | skipped skips =>
      rw [Lookup.attaches_of_day? h.opens.1] at skips
      cases skips
    | attached _ attached =>
      have hl₁' : v'.store = l₁.store.arranged ∧ v'.nextId = l₁.nextId := by
        rw [hl₁]
        exact ⟨saved, rfl⟩
      rw [hl₁'.1, hl₁'.2] at attached
      exact attached.eq_enter (by rw [hl₁]; exact entry)

end Event

/-! ## Runs -/

/-- A merge of an event in order and within the calendar, by a user who
keeps a zone, or a loss of the cache. -/
def Act.Keeps (s : Settings) (zone : Id → Zone) : Act → Prop
  | merge user _ e => user.zone = zone user.id ∧ e.starts ≤ e.ends ∧ e.InRange s user.zone
  | invalidate _ | restart => True
  | outages _ => False

instance (s : Settings) (zone : Id → Zone) (a : Act) : Decidable (a.Keeps s zone) :=
  match a with
  | .merge .. => inferInstanceAs (Decidable (_ ∧ _ ∧ _))
  | .invalidate _ | .restart => .isTrue trivial
  | .outages _ => .isFalse id

/-- A service stores what the ledger has, under the same ids. -/
structure Mirrors (zone : Id → Zone) (w : World) (l : Ledger) : Prop where
  orderly : w.Orderly fun user => [zone user]
  outages : w.outages = []
  store : w.store = .memory l.store.arranged
  nextId : w.nextId = l.nextId
  kept : l.WellKept

namespace Mirrors

variable {s : Settings} {zone : Id → Zone} {w : World} {l : Ledger}

theorem fresh (zone : Id → Zone) (now : Instant) (nextId : Nat) :
    Mirrors zone (World.fresh now nextId) { nextId } := by
  have kept : ({ nextId } : Ledger).WellKept := ⟨fun _ _ _ => rfl, fun d hd => by cases hd⟩
  exact ⟨World.orderly_fresh _ now nextId, rfl, rfl, rfl, kept⟩

/-- A merge and the ledger do the same. -/
theorem merge (h : Mirrors zone w l) (regular : ∀ user, (zone user).Regular) (measured : s.Measured)
    {user : User} {goal : Id} {e : UsageEvent} (keeps : (Act.merge user goal e).Keeps s zone) :
    ∃ r l', l.merge? s user goal e = some (r, l') ∧
      ((Work.merge s user goal e).exec w).1 = .ok r.arranged ∧
      Mirrors zone ((Act.merge user goal e).next s w) l' := by
  obtain ⟨hzone, ordered, inRange⟩ := keeps
  have compatible (user : Id) : Compatible [zone user] := compatible_singleton (regular user)
  have regular' : user.zone.Regular := hzone ▸ regular user.id
  have uses : (Act.merge user goal e).Uses fun user => [zone user] := List.mem_singleton.mpr hzone
  have sound := h.orderly.sound h.outages
  have orderly' := h.orderly.next (s := s) compatible uses
  obtain ⟨days, latest⟩ := h.orderly.of_memory h.store user.id goal
  have ending := Work.merge_ending s user goal e h.store
  cases result : ((Work.merge s user goal e).exec w).1 with
  | error stop =>
    have stuck := sound.stuck measured (compatible user.id).regular uses ordered
      (by simpa [hzone] using inRange) result
    exact absurd stuck.2 (sound.not_stuck_of_fixed (by rw [hzone]) regular')
  | ok r =>
    rw [result] at ending
    obtain ⟨date, shows, -⟩ := inRange
    cases ending with
    | merged recorded finished at' =>
      obtain ⟨r₀, l', hmerge, rfl, store, nextId⟩ := recorded.merge? finished measured h.kept rfl
        h.nextId regular' (hzone ▸ days) (Scope.load_isLast latest)
        (Scope.load_coherent latest.coherent) shows
      exact ⟨r₀, l', hmerge, rfl, orderly', at'.outages h.outages,
        at'.store.trans (congrArg _ store), at'.nextId.trans nextId, h.kept.merge? hmerge⟩

/-- The ledger takes no notice of what is cached. -/
theorem lose (h : Mirrors zone w l) (regular : ∀ user, (zone user).Regular) {a : Act}
    (keeps : a.Keeps s zone) (loses : a.isMerge = false) : Mirrors zone (a.next s w) l := by
  have compatible (user : Id) : Compatible [zone user] := compatible_singleton (regular user)
  have orderly := h.orderly.next (s := s) compatible (Act.uses_of_not_merge loses)
  cases a with
  | merge => cases loses
  | invalidate | restart => exact ⟨orderly, h.outages, h.store, h.nextId, h.kept⟩
  | outages => exact keeps.elim

/-- By induction on the acts: each of them keeps the store that of the ledger. -/
theorem run (h : Mirrors zone w l) (regular : ∀ user, (zone user).Regular) (measured : s.Measured)
    {acts : List Act} (keeps : ∀ a ∈ acts, a.Keeps s zone) :
    ∃ rs l', l.run? s acts = some (rs, l') ∧
      w.answers s acts = rs.map (fun r => .ok r.arranged) ∧ Mirrors zone (w.after s acts) l' := by
  induction acts generalizing w l with
  | nil => exact ⟨[], l, rfl, rfl, h⟩
  | cons a rest ih =>
    have keeps' : ∀ b ∈ rest, b.Keeps s zone := fun b hb => keeps b (List.mem_cons_of_mem a hb)
    cases a with
    | merge user goal e =>
      obtain ⟨r, l₁, hmerge, hanswer, h₁⟩ := h.merge regular measured (keeps _ List.mem_cons_self)
      obtain ⟨rs, l₂, hrun, hanswers, h₂⟩ := ih h₁ keeps'
      refine ⟨r :: rs, l₂, ?_, ?_, h₂⟩
      · exact Option.bind_eq_some_iff.mpr ⟨_, hmerge, Option.bind_eq_some_iff.mpr ⟨_, hrun, rfl⟩⟩
      · rw [World.answers, hanswer, hanswers, List.map_cons]
    | invalidate | restart => exact ih (h.lose regular (keeps _ List.mem_cons_self) rfl) keeps'
    | outages os => exact (keeps _ List.mem_cons_self).elim

end Mirrors

/-- Where users keep regular zones and the calendar has all that is asked
for, every merge ends well and does what the ledger does, in whatever order
events come, slots are emptied and the service is started again. The store
is then that of the ledger. -/
theorem answers_eq_ledger (zone : Id → Zone) (regular : ∀ user, (zone user).Regular) {s : Settings}
    (measured : s.Measured) (now : Instant) (nextId : Nat) {acts : List Act}
    (keeps : ∀ a ∈ acts, a.Keeps s zone) :
    ∃ rs l, ({ nextId } : Ledger).run? s acts = some (rs, l) ∧
      (World.fresh now nextId).answers s acts = rs.map (fun r => .ok r.arranged) ∧
      ((World.fresh now nextId).after s acts).store = .memory l.store.arranged := by
  obtain ⟨rs, l, hrun, hanswers, h⟩ := (Mirrors.fresh zone now nextId).run regular measured keeps
  exact ⟨rs, l, hrun, hanswers, h.store⟩

/-- Events on two days, one of them late, and the slots emptied between. -/
def Sample.late : List Act :=
  [.merge (Sample.user .east14) Sample.goal (Sample.event 1500),
    .merge (Sample.user .east14) Sample.goal (Sample.event 300), .invalidate ⟨1⟩,
    .merge (Sample.user .east14) Sample.goal (Sample.event 310)]

theorem answers_eq_ledger_of_late : (∀ a ∈ Sample.late, a.Keeps {} fun _ => .east14) ∧
    ∃ rs l, ({ nextId := 0 } : Ledger).run? {} Sample.late = some (rs, l) ∧
      (World.fresh .epoch 0).answers {} Sample.late = rs.map (fun r => .ok r.arranged) ∧
      ((World.fresh .epoch 0).after {} Sample.late).store = .memory l.store.arranged := by
  have keeps : ∀ a ∈ Sample.late, a.Keeps {} fun _ => .east14 := by decide +kernel
  have measured : ({} : Settings).Measured := Settings.measured_of_validate (by decide) (by decide)
  exact ⟨keeps, answers_eq_ledger _ (fun _ => Zone.regular_east14) measured .epoch 0 keeps⟩

end UsageDiary
