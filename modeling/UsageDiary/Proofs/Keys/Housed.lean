import UsageDiary.Proofs.Ids
import UsageDiary.Proofs.Keys.Share

/-!
# Worlds in order

A world is in order if its store is in memory, every slot holds a day of its
own user and goal if any, and all ids in slots and store were drawn before
the next one (`World.Housed`). Nothing is asked of how the cached day stands
to the stored ones. A merge keeps a world in order, and the ids in its answer
were drawn by then (`World.Housed.merge`). Every world that a run reaches is
in order (`World.housed_after`).
-/

namespace UsageDiary

variable {next next' : Nat}

/-! ## Ids of days and stores -/

theorem MemoryStore.drawn_of_mem {m : MemoryStore} (drawn : Id.Drawn next m.ids) {d : Day} (hd : d ∈ m.days) :
    Id.Drawn next d.ids := fun id hid =>
  drawn id (mem_ids.mpr (.inl ⟨d, hd, hid⟩))

theorem MemoryStore.drawn_week {m : MemoryStore} (drawn : Id.Drawn next m.ids) : m.WeeksNumbered next := by
  intro w hw
  have all : Id.Drawn next w.ids := fun id hid =>
    drawn id (mem_ids.mpr (.inr ⟨w, hw, hid⟩))
  exact ⟨all w.id List.mem_cons_self, fun p hp => all p.2 (Week.mem_ids hp)⟩

theorem Slot.drawn_day {s : Slot} (h : Id.Drawn next s.ids) {d : Day} (hd : s.day = some d) : Id.Drawn next d.ids := by
  unfold ids at h
  rwa [hd] at h

namespace Day

variable {d d' : Day}

/-- Adding an activity brings its id. -/
theorem drawn_of_add {a : Activity} (drawn : Id.Drawn next d.ids) (ha : a.id.value < next)
    (h : d.add a = .ok d') : Id.Drawn next d'.ids := by
  unfold add at h
  split at h
  · cases h
    intro id hid
    rcases List.mem_cons.mp hid with rfl | hid
    · exact drawn d.id List.mem_cons_self
    · obtain ⟨b, hb, rfl⟩ := List.mem_map.mp hid
      rcases List.mem_cons.mp ((perm_insert a d.activities).mem_iff.mp hb) with rfl | hb
      · exact ha
      · exact drawn b.id (mem_ids hb)
  · cases h

theorem map_id_updateFirst (id : Id) (ends : Instant) (as : List Activity) :
    (updateFirst id (·.extendTo ends) as).map (·.id) = as.map (·.id) := by
  induction as with
  | nil => rfl
  | cons a rest ih =>
    simp only [updateFirst]
    split
    · rw [List.map_cons, List.map_cons, (a.grows_extendTo ends).id]
    · rw [List.map_cons, List.map_cons, ih]

/-- Extending an activity brings no id. -/
theorem ids_of_extend {id : Id} {ends : Instant} {a : Activity} (h : d.extend id ends = .ok (d', a)) :
    d'.ids = d.ids ∧ a.id ∈ d.ids := by
  unfold extend at h
  split at h
  · cases h
  · next b hb =>
    split at h
    · cases h
    · cases h
      refine ⟨congrArg (d.id :: ·) (map_id_updateFirst id ends d.activities), ?_⟩
      rw [(b.grows_extendTo ends).id]
      exact mem_ids (List.mem_of_find?_eq_some hb)

end Day

/-! ## Ids of a merge -/

section Merge

variable {s : Settings} {user : User} {goal : Id} {e : UsageEvent} {v v' : Scope} {p : Placement}
  {d : Day} {opened : Bool} {r : Merged} {stop : Stop}

/-- The slot holds a day of its own user and goal if any, and the ids in it
and in the store were drawn. -/
structure Scope.Housed (user goal : Id) (v : Scope) : Prop where
  own : v.slot.Own user goal
  slot : Id.Drawn v.nextId v.slot.ids
  stored : Id.Drawn v.nextId v.store.ids

theorem Scope.Housed.load {user goal : Id} (h : v.Housed user goal) : (v.load user goal).Housed user goal := by
  refine ⟨Scope.load_own h.own, ?_, h.stored⟩
  unfold Scope.load
  dsimp only
  split
  · exact h.slot
  · refine Slot.drawn_of fun d hd => ?_
    have last := MemoryStore.isLast_findLast v.store user goal
    rw [show v.store.findLast user goal = some d from hd] at last
    exact MemoryStore.drawn_of_mem h.stored (MemoryStore.mem_of_findDay last.1)

theorem Scope.Housed.later {user goal : Id} (h : v.Housed user goal) (le : v.nextId ≤ next) :
    Scope.Housed user goal { v with nextId := next } :=
  ⟨h.own, h.slot.mono le, h.stored.mono le⟩

theorem Placed.drawn {t : Instant} (placed : Placed v.store user goal t v.slot.day p)
    (housed : v.Housed user.id goal) (h : p.lookup.day? = some d) : Id.Drawn v.nextId d.ids := by
  rcases placed.source h with cached | holds
  · exact Slot.drawn_day housed.slot cached
  · exact MemoryStore.drawn_of_mem housed.stored (MemoryStore.mem_of_findDay holds)

theorem Taken.drawn {user goal : Id} (h : Taken user goal p next d opened next')
    (placed : ∀ d, p.lookup.day? = some d → Id.Drawn next d.ids) : Id.Drawn next' d.ids := by
  cases h with
  | kept hd => exact placed d hd
  | opened _ opens =>
    rw [(Day.create_eq_ok opens).2.2]
    intro id hid
    rw [List.mem_singleton.mp hid]
    exact Nat.lt_succ_self next

theorem Applied.drawn (h : Applied s d opened e next r next') (drawn : Id.Drawn next d.ids) :
    Id.Drawn next' r.ids := by
  cases h with
  | create _ _ added =>
    have day := Day.drawn_of_add (drawn.mono (Nat.le_succ next)) (Nat.lt_succ_self next) added
    intro id hid
    rcases List.mem_cons.mp hid with rfl | hid
    · exact Nat.lt_succ_self next
    · exact day id hid
  | extend _ extended =>
    obtain ⟨same, mem⟩ := Day.ids_of_extend extended
    intro id hid
    rcases List.mem_cons.mp hid with rfl | hid
    · exact drawn _ mem
    · exact drawn id (same ▸ hid)
  | absorb decided =>
    intro id hid
    rcases List.mem_cons.mp hid with rfl | hid
    · rcases Settings.decide?_cases decided with hd | ⟨last, hlast, ⟨hd, -⟩ | hd⟩
      · cases hd
      · cases hd
      · cases hd
        exact drawn _ (Day.mem_ids (Day.mem_of_last? hlast))
    · exact drawn id hid

theorem Unapplied.drawn (h : Unapplied s d e next stop) (drawn : Id.Drawn next d.ids) : Id.Drawn next stop.ids := by
  cases h with
  | undecided => exact .of_nil rfl
  | unstretched => exact .of_nil rfl
  | unadded _ _ h =>
    unfold Day.add at h
    split at h
    · cases h
    · cases h
      intro id hid
      rw [List.mem_singleton.mp hid]
      exact drawn d.id List.mem_cons_self
  | unextended decided h =>
    obtain ⟨last, hlast, rfl, -⟩ := Settings.lt_ends_of_extend decided
    unfold Day.extend at h
    split at h
    · cases h
      intro id hid
      rw [List.mem_singleton.mp hid]
      exact drawn _ (Day.mem_ids (Day.mem_of_last? hlast))
    · split at h
      · cases h
        exact .of_nil rfl
      · cases h

namespace Recorded

variable (h : Recorded s user goal e v p d opened next r v') (before : v.Housed user.id goal)

include h

include before

theorem ids : Id.Drawn v'.nextId r.ids :=
  h.applied.drawn (h.taken.drawn fun _ => h.placed.drawn before)

theorem housed : v'.Housed user.id goal := by
  have day : Id.Drawn v'.nextId r.day.ids := fun id hid => h.ids before id (List.mem_cons_of_mem _ hid)
  refine ⟨?_, ?_, MemoryStore.drawn_of (fun d hd => ?_)
    (h.weeksNumbered (MemoryStore.drawn_week before.stored))⟩
  · rw [h.slot]
    split
    · exact before.own
    · intro c hc
      cases hc
      exact h.day_key before.own
  · rw [h.slot]
    split
    · exact before.slot.mono h.le
    · exact day
  · rw [h.store] at hd
    split at hd
    · rcases MemoryStore.mem_saveDay hd with rfl | hd
      · exact day
      · exact (MemoryStore.drawn_of_mem before.stored hd).mono h.le
    · exact (MemoryStore.drawn_of_mem before.stored hd).mono h.le

end Recorded

theorem Finished.housed {attaches late : Bool} {user goal : Id} (h : Finished attaches late d v v')
    (housed : v.Housed user goal) (day : Id.Drawn v.nextId d.ids) : v'.Housed user goal := by
  have days : ∀ d ∈ v'.store.days, Id.Drawn v'.nextId d.ids := fun d hd =>
    (MemoryStore.drawn_of_mem housed.stored (h.days ▸ hd)).mono h.le
  have slot : Id.Drawn v'.nextId v'.slot.ids := Slot.drawn_of fun d hd =>
    (Slot.drawn_day housed.slot (h.slot.1 ▸ hd)).mono h.le
  refine ⟨fun c hc => housed.own c (h.slot.1 ▸ hc), slot, MemoryStore.drawn_of days ?_⟩
  have weeks := MemoryStore.drawn_week housed.stored
  cases h with
  | skipped => exact weeks
  | attached _ attached => exact attached.weeksNumbered (day d.id List.mem_cons_self) weeks

/-- However a merge ends, its slot and the store are in order. -/
theorem Ending.housed {w w' : World} {result : Answer} (h : Ending s user goal e w v result w')
    (housed : v.Housed user.id goal) :
    ∃ v', w.At user.id goal v' w' ∧ v'.Housed user.id goal ∧ v.nextId ≤ v'.nextId ∧
      ∀ r, result = .ok r → Id.Drawn v'.nextId r.ids := by
  have loaded := housed.load
  cases h with
  | unloaded _ h => exact ⟨_, h, housed, Nat.le_refl _, fun _ hr => by cases hr⟩
  | unrecorded _ h le => exact ⟨_, h, loaded.later le, le, fun _ hr => by cases hr⟩
  | unattached recorded _ h le =>
    exact ⟨_, h, (recorded.housed loaded).later le, Nat.le_trans recorded.le le, fun _ hr => by cases hr⟩
  | merged recorded finished h =>
    have ids := recorded.ids loaded
    refine ⟨_, h, finished.housed (recorded.housed loaded) fun id hid => ids id (List.mem_cons_of_mem _ hid),
      Nat.le_trans recorded.le finished.le, fun r hr => ?_⟩
    cases hr
    exact ids.mono finished.le

end Merge

/-! ## Ids of what stops a merge -/

namespace Work

variable {s : Settings} {user : User} {goal : Id} {e : UsageEvent} {base w : World} {v : Scope} {d : Day}

/-- What stops the recording of an event names ids that were drawn. -/
theorem recordEvent_stop (h : base.At user.id goal v w) (housed : v.Housed user.id goal) :
    WP (recordEvent s v.slot user goal e) w (fun _ _ => True)
      fun stop w' => Id.Drawn w'.nextId stop.ids := by
  unfold recordEvent
  refine (place_ok h).bind (fun p w₁ ⟨placed, h₁⟩ => ?_) fun stop w₁ ⟨why, _⟩ => .of_nil ?_
  rotate_left
  · exact why.elim World.Failing.ids Unplaced.ids
  refine (report_ok _ h₁).bind (fun _ w₂ h₂ => ?_) fun _ _ => False.elim
  refine (takeDay_ok p h₂).bind (fun (d, opened) w₃ ⟨next, taken, h₃⟩ => ?_)
    fun stop w₃ ⟨⟨z, _, _, hstop⟩, _⟩ => .of_nil (hstop ▸ rfl)
  have day : Id.Drawn next d.ids := taken.drawn fun _ => placed.drawn housed
  refine WP.ite_bind (base.At user.id goal _) (fun _ => report_ok _ h₃) (fun _ => h₃)
    (fun w₄ h₄ => ?_) fun _ _ => False.elim
  refine (apply_ok s d opened (e.fit d) h₄).bind (fun r w₅ ⟨next', applied, h₅⟩ => ?_)
    fun stop w₅ ⟨why, next', le, h₅⟩ => h₅.nextId ▸ (why.drawn day).mono le
  exact WP.ite_bind (fun _ => True) (fun _ => (saveDay_ok _ h₅).mono (fun _ _ _ => trivial) fun _ _ => id)
    (fun _ => trivial) (fun _ _ => trivial) fun _ _ failed => .of_nil failed.1.ids

/-- Attaching a day to a week of its own user and goal stops without naming
an id. -/
theorem attachTo_stop {week : Week} (isNew : Bool) (user : week.user = d.user) (goal : week.goal = d.goal)
    {user' goal' : Id} (h : base.At user' goal' v w) :
    WP (attachTo isNew week d) w (fun _ _ => True) fun stop _ => stop.ids = [] := by
  unfold attachTo
  rw [Week.attach_eq user goal]
  refine (respecting_ok _ w).bind (fun r w₁ ⟨_, same⟩ => ?_) fun stop w₁ ⟨⟨broken, hr, hstop⟩, _⟩ => ?_
  · refine WP.ite (fun _ => ?_) fun _ => trivial
    refine (saveWeek_ok _ (same ▸ h)).bind (fun _ w₂ h₂ => ?_) fun _ _ failed => failed.1.ids
    exact (report_ok _ h₂).bind (fun _ _ _ => trivial) fun _ _ => False.elim
  · split at hr
    · cases hr
    · cases hr
      exact hstop ▸ rfl

theorem attachDay_stop {user goal : Id} (h : base.At user goal v w) :
    WP (attachDay d) w (fun _ _ => True) fun stop _ => stop.ids = [] := by
  unfold attachDay
  refine (findWeek_ok _ _ _ h).bind (fun found w₁ ⟨hfound, h₁⟩ => ?_)
    fun _ _ failed => failed.1.ids
  cases found with
  | none =>
    refine (freshId_ok h₁).bind (fun id w₂ ⟨_, h₂⟩ => ?_) fun _ _ => False.elim
    exact attachTo_stop true rfl rfl h₂
  | some week =>
    obtain ⟨user, goal, -⟩ := MemoryStore.key_of_findWeek hfound.symm
    exact attachTo_stop false user goal h₁

/-- Settling a day stops without naming an id. -/
theorem settle_stop {user goal : Id} (slot : Slot) (p : Placement) (r : Merged) (h : base.At user goal v w) :
    WP (settle slot user goal p r) w (fun _ _ => True) fun stop _ => stop.ids = [] := by
  unfold settle
  refine WP.ite_bind (fun w' => ∃ v', base.At user goal v' w')
    (fun _ => (setSlot_ok _ h).mono (fun _ _ h => ⟨_, h⟩) fun _ _ => id) (fun _ => ⟨v, h⟩)
    (fun w₁ ⟨v₁, h₁⟩ => ?_) fun _ _ => False.elim
  have attached : WP (attachPending user goal (p.lookup.attaches slot) (!p.lookup.isLate) r.day) w₁
      (fun _ _ => True) fun stop _ => stop.ids = [] := by
    unfold attachPending
    refine WP.ite (fun _ => ?_) fun _ => trivial
    refine (attachDay_stop h₁).bind (fun _ w₂ _ => ?_) fun _ _ => id
    exact WP.ite (fun _ => trivial) fun _ => trivial
  exact attached.bind (fun _ _ _ => trivial) fun _ _ => id

/-- What stops a merge names ids that were drawn. -/
theorem merge_stop (h : base.At user.id goal v w) (housed : v.Housed user.id goal) :
    WP (merge s user goal e) w (fun _ _ => True) fun stop w' => Id.Drawn w'.nextId stop.ids := by
  rw [merge_eq]
  refine (loadedSlot_ok h).bind (fun slot w₁ ⟨hslot, h₁⟩ => ?_) fun _ _ failed => .of_nil failed.1.ids
  rw [hslot]
  refine (recordEvent_stop h₁ housed.load).exec.bind (fun (p, r) w₂ ⟨done, _⟩ => ?_) fun _ _ stopped => stopped.2
  obtain ⟨d, opened, next, v', recorded, h₂⟩ := (recordEvent_ok h₁).of_exec done
  exact (settle_stop _ p r h₂).mono (fun _ _ => id) fun _ _ => .of_nil

end Work

/-! ## Worlds -/

/-- The store is in memory, every slot holds a day of its own user and goal
if any, and the ids in slots and store were drawn. -/
structure World.Housed (w : World) : Prop where
  own (user goal : Id) : (w.cache.slot user goal).Own user goal
  slots (user goal : Id) : Id.Drawn w.nextId (w.cache.slot user goal).ids
  stored : ∃ m, w.store = .memory m ∧ Id.Drawn w.nextId m.ids

namespace World.Housed

variable {w : World} (h : w.Housed)

include h

theorem share (user goal : Id) : ∃ share, w.share user goal = some share ∧
    share.slot.Own user goal ∧ Id.Drawn w.nextId share.ids := by
  obtain ⟨m, hm, drawn⟩ := h.stored
  refine ⟨_, World.share_of_memory hm user goal, h.own user goal, fun id hid => ?_⟩
  rcases List.mem_append.mp hid with hid | hid
  · exact h.slots user goal id hid
  · exact drawn id (m.ids_only_subset user goal hid)

/-- A merge keeps a world in order, and answers with ids that were drawn. -/
theorem merge (s : Settings) (user : User) (goal : Id) (e : UsageEvent) :
    ((Work.merge s user goal e).exec w).2.Housed ∧
      w.nextId ≤ ((Work.merge s user goal e).exec w).2.nextId ∧
      Id.Drawn ((Work.merge s user goal e).exec w).2.nextId (Answer.ids ((Work.merge s user goal e).exec w).1) := by
  obtain ⟨m, hm, stored⟩ := h.stored
  have start := at_self hm user.id goal
  have housed : Scope.Housed user.id goal ⟨m, w.cache.slot user.id goal, w.nextId⟩ :=
    ⟨h.own user.id goal, h.slots user.id goal, stored⟩
  obtain ⟨v', at', housed', le, ids⟩ := (Work.merge_ending s user goal e hm).housed housed
  have stops := Work.merge_stop (s := s) (e := e) start housed
  unfold Work.WP at stops
  rcases exec : (Work.merge s user goal e).exec w with ⟨answer, w'⟩
  rw [exec] at at' ids stops
  rw [← at'.nextId] at le ids
  have slots (user' goal' : Id) : (w'.cache.slot user' goal').Own user' goal' ∧
      Id.Drawn w'.nextId (w'.cache.slot user' goal').ids := by
    by_cases key : (user', goal') = (user.id, goal)
    · cases key
      rw [at'.slot, at'.nextId]
      exact ⟨housed'.own, housed'.slot⟩
    · rw [at'.others key]
      exact ⟨h.own user' goal', (h.slots user' goal').mono le⟩
  refine ⟨⟨fun u g => (slots u g).1, fun u g => (slots u g).2, v'.store, at'.store, ?_⟩, le, ?_⟩
  · rw [at'.nextId]
    exact housed'.stored
  · cases answer with
    | ok r => exact ids r rfl
    | error stop => exact stops

end World.Housed

/-- Every world that a run reaches is in order. -/
theorem World.housed_after (s : Settings) (now : Instant) (nextId : Nat) (acts : List Act) :
    ((fresh now nextId).after s acts).Housed := by
  obtain ⟨m, hm, coherent⟩ := coherent_after (s := s) now nextId acts
  have days := (numbered_after (s := s) now nextId acts).of_memory hm
  have weeks := (weeksNumbered_after (s := s) now nextId acts).of_memory hm
  exact ⟨fun user goal => (coherent user goal).own, fun user goal => (coherent user goal).ids days,
    m, hm, days.ids weeks⟩

end UsageDiary
