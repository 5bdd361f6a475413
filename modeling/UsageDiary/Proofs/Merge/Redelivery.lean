import UsageDiary.Conflict
import UsageDiary.Proofs.Keys.Share
import UsageDiary.Proofs.Merge.Retry

/-!
# Events that are delivered twice

An event that was merged and is merged again at once is absorbed by the
activity that it is part of already, and nothing changes
(`redelivered_merge_absorbed`). The second merge finds the day that the
first one recorded the event in, and that day absorbs it
(`Recorded.recordEvent_again`). Nor is there anything left to attach: a day
in time lost its mark with the first merge (`Recorded.unmarked`), and one
that came late is entered in its week (`Attached.entered?_eq`).
-/

namespace UsageDiary

section Finished

variable {s : Settings} {user : User} {goal : Id} {e : UsageEvent} {v v' v'' : Scope} {p : Placement}
  {d : Day} {opened : Bool} {next : Nat} {r : Merged}

/-- An instant is placed by the days of a store. -/
theorem MemoryStore.place_congr {m m' : MemoryStore} (days : m'.days = m.days) (user : User) (goal : Id)
    (t : Instant) (cached : Option Day) : m'.place user goal t cached = m.place user goal t cached := by
  have zones : Store.zones (.memory m') = Store.zones (.memory m) := by
    show (m'.days.map Day.zone).eraseDups = (m.days.map Day.zone).eraseDups
    rw [days]
  have searched (first : List Zone) : m'.search user.id goal t first = m.search user.id goal t first := by
    unfold search
    rw [zones]
    have once := (nodup_eraseDups (m.days.map Day.zone)).filter (· ∉ first)
    exact seek_congr (findDay_congr days user.id goal) once once fun _ _ _ => Iff.rfl
  unfold place
  simp only [searched]

namespace Recorded

/-- Once a merge ended, a day in time is not marked any more. -/
theorem unmarked (h : Recorded s user goal e v p d opened next r v')
    (finished : Finished (p.lookup.attaches v.slot) p.lookup.isLate r.day v' v'')
    (inTime : p.lookup.isLate = false) : v''.slot.weekPending = false := by
  cases finished with
  | attached =>
    rw [inTime]
    rfl
  | skipped skips =>
    cases opened with
    | true =>
      rw [Lookup.attaches_of_day? h.opens.1] at skips
      cases skips
    | false =>
      obtain ⟨cached, current⟩ := h.cached_of_kept inTime
      rw [current] at skips
      have clear : v.slot.weekPending = false := skips
      rw [h.slot, if_neg (by simp [inTime]), Slot.replace, cached, clear]
      simp [h.applied.grows.id]

/-- A day that was recorded and settled is settled again without a change. -/
theorem finished_again (h : Recorded s user goal e v p d opened next r v')
    (finished : Finished (p.lookup.attaches v.slot) p.lookup.isLate r.day v' v'') {u : Scope}
    (again : Finished ((lookupAgain p r).attaches v''.slot) (lookupAgain p r).isLate r.day v'' u) :
    u.store = v''.store ∧ u.slot = v''.slot := by
  rw [isLate_lookupAgain] at again
  cases late : p.lookup.isLate with
  | true =>
    refine ⟨?_, again.slot_of_late late⟩
    cases finished with
    | skipped skips =>
      have attaches : p.lookup.attaches v.slot = true := by
        cases hp : p.lookup <;> rw [hp] at late <;> first | rfl | cases late
      cases attaches.symm.trans skips
    | attached _ attached =>
      refine (again.eq_of_entered ?_).1
      rw [attached.entered?_eq, if_pos ⟨rfl, rfl, rfl⟩]
  | false =>
    have clear := h.unmarked finished late
    cases again with
    | skipped => exact ⟨rfl, rfl⟩
    | attached attaches =>
      rw [lookupAgain, if_neg (by simp [late])] at attaches
      exact absurd attaches (by simp [Lookup.attaches, clear])

end Recorded
end Finished

section Merge

variable {s : Settings} {user : User} {goal : Id} {e : UsageEvent} {v v' v'' : Scope} {p : Placement}
  {d : Day} {opened : Bool} {next : Nat} {r : Merged} {base w : World}

/-- A merge that ended is done again from its end without a change. -/
theorem Recorded.merge_again (h : Recorded s user goal e v p d opened next r v') (timed : s.Timed)
    (loaded : v.slot.loaded = true) (coherent : v.slot.Coherent v.store user.id goal)
    (takes : d.Takes e next) (tidy : d.Tidy s) (ordered : e.starts ≤ e.ends)
    (inOrder : ∀ last, d.last? e.device = some last → last.starts ≤ e.starts)
    (answer : v.store.place user goal e.starts v.slot.day = .ok p)
    (finished : Finished (p.lookup.attaches v.slot) p.lookup.isLate r.day v' v'')
    (at'' : base.At user.id goal v'' w) (calm : base.outages = []) :
    ∃ w' u, (Work.merge s user goal e).exec w = (.ok ⟨.absorbed r.outcome.activity, r.day⟩, w') ∧
      base.At user.id goal u w' ∧ u.store = v''.store ∧ u.slot = v''.slot := by
  have loaded'' : v''.slot.loaded = true := finished.slot.2.trans (h.loaded loaded)
  obtain ⟨w₁, loads, h₁⟩ := Work.loadedSlot_calm at'' calm
  rw [Scope.load_of_loaded loaded''] at loads h₁
  have placed : v''.store.place user goal e.starts v''.slot.day =
      .ok ⟨lookupAgain p r, r.day.zone, r.day.date⟩ := by
    rw [MemoryStore.place_congr finished.days, finished.slot.1]
    exact h.place_again coherent takes.covers answer
  obtain ⟨w₂, records, h₂⟩ := h.recordEvent_again timed takes tidy ordered inOrder h₁ calm placed
  obtain ⟨d', opened', next', u', again, h₂'⟩ := (Work.recordEvent_ok h₁).of_exec records
  have kept : u' = v'' := by
    have slot := again.slot_of_not_persisted loaded'' rfl
    have same := h₂'.eq h₂
    rw [← slot] at same
    exact same
  subst kept
  have settles := Work.settle_ok again h₂'
  obtain ⟨_, w₃, done, rfl, u, finishes, h₃⟩ := settles.exists_ok fun stop _ stopped => by
    rcases stopped.1 with failing | last
    · exact failing.1 calm
    · rw [h.applied.grows.date] at last
      exact not_lt_of_ge last takes.bounded.lt_last
  refine ⟨w₃, u, ?_, h₃, h.finished_again finished finishes⟩
  rw [Work.merge_eq, Work.exec_bind_of_ok loads, Work.exec_bind_of_ok records]
  exact done

/-- A merge that ends in a value recorded its event where it was placed, and
settled the day. -/
theorem Work.merge_course (h : w.At user.id goal v w) :
    WP (merge s user goal e) w
      (fun r w' => ∃ p d opened next v' v'',
        Recorded s user goal e (v.load user.id goal) p d opened next r v' ∧
        (v.load user.id goal).store.place user goal e.starts (v.load user.id goal).slot.day = .ok p ∧
        Finished (p.lookup.attaches (v.load user.id goal).slot) p.lookup.isLate r.day v' v'' ∧
        w.At user.id goal v'' w')
      fun _ _ => True := by
  rw [merge_eq]
  refine (loadedSlot_ok h).bind (fun slot w₁ ⟨same, h₁⟩ => ?_) fun _ _ _ => trivial
  rw [same]
  refine (recordEvent_ok h₁).exec.bind
    (fun (p, r) w₂ ⟨records, d, opened, next, v', recorded, h₂⟩ => ?_) fun _ _ _ => trivial
  refine (settle_ok recorded h₂).mono (fun r' w₃ ⟨same, v'', finished, h₃⟩ => ?_) fun _ _ _ => trivial
  exact same ▸ ⟨p, d, opened, next, v', v'', recorded, (recordEvent_place h₁).of_exec records, finished, h₃⟩

end Merge

/-- However events were merged, slots emptied and store calls failed before,
in regular zones: an event that was merged, also in spite of outages, and is
merged again is absorbed by the activity that it is part of. The days, the
weeks and the cached days stay as they are, and nothing is notified under
any policy. The event must not start before the last activity of its device
in the day that it is placed in. -/
theorem redelivered_merge_absorbed (zones : Id → List Zone)
    (regular : ∀ user, ∀ z ∈ zones user, z.Regular) {s : Settings} (valid : s.validate = .ok ())
    (combine : s.combineMillis < 9223372036854775808) (now : Instant) (nextId : Nat) {acts : List Act}
    (uses : ∀ a ∈ acts, a.Uses zones)
    (events : ∀ user goal e, .merge user goal e ∈ acts → e.starts.Ordinary ∧ e.ends.Ordinary)
    {user : User} (goal : Id) {e : UsageEvent} (zone : user.zone ∈ zones user.id)
    (ordinary : e.starts.Ordinary ∧ e.ends.Ordinary) (ordered : e.starts ≤ e.ends)
    (inOrder : ((World.fresh now nextId).after s acts).InOrder user goal e) {outages : List Outage}
    {r : Merged} {w' : World}
    (merged : (Work.merge s user goal e).exec (((World.fresh now nextId).after s acts).facing outages) =
      (.ok r, w')) :
    ∃ w'', (Work.merge s user goal e).exec (w'.facing []) =
        (.ok ⟨.absorbed r.outcome.activity, r.day⟩, w'') ∧
      w''.store = w'.store ∧
      (∀ user' goal', w''.cache.slot user' goal' = w'.cache.slot user' goal') ∧
      ∀ (policy : ConflictPolicy) (g : Goal),
        policy.isConflict g (.absorbed r.outcome.activity) = false := by
  have timed := Settings.timed_of_validate valid combine
  have plain (a : Act) (ha : a ∈ acts) : a.Plain (zones user.id) user.id :=
    (uses a ha).plain (fun u g e same => events u g e (same ▸ ha)) user.id
  have keeps := World.tidy_after timed (regular user.id) now nextId plain
  generalize (World.fresh now nextId).after s acts = w at *
  obtain ⟨m, hm, coherent⟩ := keeps.coherent
  have start := (World.at_self hm user.id goal).facing []
  obtain ⟨p, d, opened, next, v', v'', recorded, answer, finished, h⟩ :=
    (Work.merge_course ((World.at_self hm user.id goal).facing outages)).of_exec merged
  obtain ⟨-, takes, tidy⟩ := keeps.takes (regular user.id) (fun _ => .of_nil) hm
    (fun _ => ⟨zone, ordinary⟩) rfl recorded
  obtain ⟨w'', u, absorbed, again, store, slot⟩ := recorded.merge_again timed (Scope.load_loaded ..)
    (Scope.load_coherent (coherent user.id goal)) takes tidy ordered (inOrder.last start recorded answer)
    answer finished (h.facing []) rfl
  refine ⟨w'', absorbed, ?_, fun user' goal' => ?_, fun policy g => ?_⟩
  · rw [again.store, store]
    exact h.store.symm
  · by_cases key : (user', goal') = (user.id, goal)
    · obtain ⟨rfl, rfl⟩ := Prod.mk.inj key
      rw [again.slot, slot]
      exact h.slot.symm
    · exact again.others key
  · cases policy <;> exact Bool.and_false _

namespace Sample

/-- A service that merged an event of the next day first. -/
def ahead : World := (World.fresh .epoch 0).after {} [.merge (user .utc) goal (event 1500)]

/-- The event of the day before, which comes late. -/
def belated : Except Stop Merged × World := (Work.merge {} (user .utc) goal (event 600)).exec (ahead.facing [])

/-- An event that comes late and opened a day for itself is absorbed there
when it comes again. -/
theorem belated_absorbed : ∃ r, belated.1 = .ok r ∧ r.outcome.isPersisted = true ∧ ∃ w,
    (Work.merge {} (user .utc) goal (event 600)).exec (belated.2.facing []) =
      (.ok ⟨.absorbed r.outcome.activity, r.day⟩, w) ∧ w.store = belated.2.store := by
  have merges : belated.1.toOption.any (·.outcome.isPersisted) = true := by decide +kernel
  have inOrder : ahead.InOrder (user .utc) goal (event 600) := by
    have opens : (ahead.placement (user .utc) goal (event 600).starts).toOption.bind (·.lookup.day?) =
        none := by decide +kernel
    intro p hp d hd
    rw [hp] at opens
    cases opens.symm.trans hd
  have events : ∀ u g e, .merge u g e ∈ [Act.merge (user .utc) goal (event 1500)] →
      e.starts.Ordinary ∧ e.ends.Ordinary := by
    intro u g e he
    simp only [List.mem_singleton, Act.merge.injEq] at he
    obtain ⟨-, -, rfl⟩ := he
    decide +kernel
  rcases exec : belated with ⟨stop | r, w'⟩
  · rw [exec] at merges
    cases merges
  · rw [exec] at merges
    obtain ⟨w, again, store, -⟩ := redelivered_merge_absorbed (fun _ => [.utc])
      (fun _ => by simpa using Zone.regular_utc) (s := {}) (by decide) (by decide) .epoch 0
      (by simp [Act.Uses, user]) events goal (by simp [user]) (by decide +kernel) (by decide +kernel)
      inOrder exec
    exact ⟨r, rfl, merges, w, again, store⟩

end Sample
end UsageDiary
