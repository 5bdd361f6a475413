import UsageDiary.Proofs.Merge.Redelivery
import UsageDiary.Proofs.Merge.Saves

/-!
# What a merge touches

A merge that ends in a value leaves the store as it was but for its day and
the week of that day, and saves the day once if the event changed it
(`World.Touched`, `merge_touches_one_day`). The day is the one that the
event was placed in, or a new one, with one activity more, with the end of
one activity of the device moved forward, or as it was (`Day.Changed`). An
event that came before the cached day leaves the slot alone; after any other
one the slot has the day, without a mark.
-/

namespace UsageDiary

/-! ## The change to the day -/

/-- What an event does to the day that takes it, and what the merge answers:
an activity is put among the others, the end of one of its device is moved
to that of the event or the day, or the day is as it was. -/
inductive Day.Changed (d : Day) (opened : Bool) (e : UsageEvent) : Merged → Prop where
  | created {before after : List Activity} {a : Activity} (activities : d.activities = before ++ after)
      (device : a.device = e.device) :
      Changed d opened e ⟨.created a opened, { d with activities := before ++ a :: after }⟩
  | extended {before after : List Activity} {last : Activity}
      (activities : d.activities = before ++ last :: after) (device : last.device = e.device)
      (later : last.ends < min e.ends d.ends) :
      Changed d opened e ⟨.extended { last with ends := min e.ends d.ends },
        { d with activities := before ++ { last with ends := min e.ends d.ends } :: after }⟩
  | absorbed {a : Activity} (mem : a ∈ d.activities) (device : a.device = e.device) :
      Changed d opened e ⟨.absorbed a, d⟩

/-- An event that is applied to a day changes it in one of these ways. -/
theorem Applied.changed {s : Settings} {d : Day} {opened : Bool} {e : UsageEvent} {next next' : Nat}
    {r : Merged} (h : Applied s d opened (e.fit d) next r next') (labelled : d.Labelled next) :
    d.Changed opened e r := by
  have device : (e.fit d).device = e.device := by rw [UsageEvent.fit_eq]
  cases h with
  | create _ _ added =>
    obtain ⟨-, rfl⟩ := Day.add_eq added
    obtain ⟨before, after, split, inserted⟩ := Day.insert_split _ d.activities
    rw [inserted]
    exact .created split device
  | extend decided extended =>
    obtain ⟨last, hlast, rfl, longer⟩ := Settings.lt_ends_of_extend decided
    have mem := Day.mem_of_last? hlast
    obtain ⟨rfl, -, -⟩ := Day.extend_eq labelled mem longer extended
    obtain ⟨before, after, split, rfl⟩ := Day.extend_split labelled mem longer extended
    rw [UsageEvent.ends_fit] at longer ⊢
    exact .extended split ((Day.device_of_last? hlast).trans device) longer
  | absorb decided =>
    rcases Settings.decide?_cases decided with hd | ⟨last, hlast, ⟨hd, -⟩ | hd⟩
    · cases hd
    · cases hd
    · cases hd
      exact .absorbed (Day.mem_of_last? hlast) ((Day.device_of_last? hlast).trans device)

/-! ## The change to the world -/

namespace World

/-- The week of a day has the id of the day for its date. -/
def Enters (w : World) (user goal : Id) (d : Day) : Prop :=
  ∃ week, (w.store.findWeek user goal d.date.weekStart).result = .ok (some week) ∧
    Week.lookup d.date week.days = some d.id

/-- What a merge that answers `r` touched between two worlds. -/
structure Touched (w : World) (user : User) (goal : Id) (e : UsageEvent) (r : Merged) (w' : World) :
    Prop where
  /-- The store has the day of the answer, and every other day as it was. -/
  days : ∀ user' goal' date, (w'.store.findDay user' goal' date).result =
    if user' = user.id ∧ goal' = goal ∧ date = r.day.date then .ok (some r.day)
    else (w.store.findDay user' goal' date).result
  /-- The day was saved once if the event changed it, and then its week at
  most, which did not have the day for its date. -/
  saves : ∃ weeks, w'.saves = w.saves ++ (if r.outcome.isPersisted then
      [.saveDay user.id goal r.day.date r.day.activities.length] else []) ++ weeks ∧
    (weeks = [] ∨ ¬ w.Enters user.id goal r.day ∧
      ∃ entries, weeks = [.saveWeek user.id goal r.day.date.weekStart entries])
  /-- Every other week is as it was, and that one too if it had the day. -/
  weeks : ∀ user' goal' start, ¬ (user' = user.id ∧ goal' = goal ∧ start = r.day.date.weekStart ∧
      ¬ w.Enters user.id goal r.day) →
    (w'.store.findWeek user' goal' start).result = (w.store.findWeek user' goal' start).result
  /-- The day of the answer is the one that the event was placed in, or a
  new one, with one change. -/
  changed : ∃ p d opened next, w.placement user goal e.starts = .ok p ∧
    Taken user.id goal p w.nextId d opened next ∧ (opened = true → d.activities = []) ∧
    d.Changed opened e r
  late : (w.loadedSlot user.id goal).IsAfter e.starts →
    w'.cache.slot user.id goal = w.loadedSlot user.id goal
  cached : ¬ (w.loadedSlot user.id goal).IsAfter e.starts →
    w'.cache.slot user.id goal = ⟨some r.day, true, false⟩
  others : ∀ user' goal', (user', goal') ≠ (user.id, goal) →
    w'.cache.slot user' goal' = w.cache.slot user' goal'

theorem enters_iff {w : World} {m : MemoryStore} (hm : w.store = .memory m) {user goal : Id} {d : Day} :
    w.Enters user goal d ↔ m.entered? user goal d.date = some d.id := by
  unfold Enters MemoryStore.entered?
  rw [hm, Option.bind_eq_some_iff]
  exact exists_congr fun week => and_congr_left fun _ => ⟨Except.ok.inj, congrArg Except.ok⟩

end World

section Merge

variable {s : Settings} {user : User} {goal : Id} {e : UsageEvent} {v v' v'' : Scope} {p : Placement}
  {d : Day} {opened : Bool} {next : Nat} {r : Merged}

/-- What is saved of weeks is said of the world by what its store has. -/
theorem WeekSaved.cases {w : World} {m : MemoryStore} {cs : List Call} (h : WeekSaved m d cs)
    (hm : w.store = .memory m) : cs = [] ∨ ¬ w.Enters d.user d.goal d ∧
      ∃ entries, cs = [.saveWeek d.user d.goal d.date.weekStart entries] := by
  rw [World.enters_iff hm]
  cases h with
  | nothing => exact .inl rfl
  | week other => exact .inr ⟨other, _, rfl⟩

namespace Recorded

/-- The days of the store after an event was recorded. -/
theorem findDay_eq (h : Recorded s user goal e v p d opened next r v')
    (coherent : v.slot.Coherent v.store user.id goal) (user' goal' : Id) (date : Date) :
    v'.store.findDay user' goal' date = if user' = user.id ∧ goal' = goal ∧ date = r.day.date then
      some r.day else v.store.findDay user' goal' date := by
  rw [h.applied.grows.date]
  split
  · next key =>
    obtain ⟨rfl, rfl, rfl⟩ := key
    exact h.findDay_self coherent
  · next other => exact h.findDay_of_ne coherent other

/-- The slot after an event was recorded and its day settled. -/
theorem slot_settled (h : Recorded s user goal e v p d opened next r v')
    (finished : Finished (p.lookup.attaches v.slot) p.lookup.isLate r.day v' v'') :
    v''.slot = if p.lookup.isLate then v.slot else ⟨some r.day, true, false⟩ := by
  split
  · next late => rw [finished.slot_of_late late, h.slot, if_pos late]
  · next inTime =>
    have clear := h.unmarked finished (by simpa using inTime)
    have kept := finished.slot
    rw [h.slot, if_neg inTime] at kept
    generalize v''.slot = slot at clear kept ⊢
    obtain ⟨day, loaded, pending⟩ := slot
    obtain ⟨rfl, rfl⟩ := kept
    rw [show pending = false from clear]
    rfl

end Recorded

/-- Whatever was merged before, by whom and in which zones, whichever slots
were emptied and whichever store calls failed: a merge that ends in a value
touches one day, its week and its slot, as `World.Touched` says. -/
theorem merge_touches_one_day (s : Settings) (acts : List Act) (now : Instant) (nextId : Nat)
    {user : User} {goal : Id} {e : UsageEvent} {r : Merged} {w' : World}
    (merged : (Work.merge s user goal e).exec ((World.fresh now nextId).after s acts) = (.ok r, w')) :
    ((World.fresh now nextId).after s acts).Touched user goal e r w' := by
  obtain ⟨m, hm, coherent⟩ := World.coherent_after (s := s) now nextId acts
  have numbered := (World.numbered_after (s := s) now nextId acts).of_memory hm
  generalize (World.fresh now nextId).after s acts = w at *
  have start := World.at_self hm user.id goal
  obtain ⟨p, d, opened, next, v', v'', recorded, answer, finished, h⟩ :=
    (Work.merge_course start).of_exec merged
  obtain ⟨cs, week, saved⟩ := (Work.merge_saves s e start).of_exec merged
  have loaded := Scope.load_coherent (v := ⟨m, w.cache.slot user.id goal, w.nextId⟩)
    (coherent user.id goal)
  obtain ⟨keyUser, keyGoal⟩ := recorded.day_key loaded.own
  have numberedDay := recorded.numbered_taken loaded numbered
  have slot := recorded.slot_settled finished
  have late := recorded.placed.isLate_iff
  rw [← w.loadedSlot_eq hm] at slot late
  have days (user' goal' : Id) (date : Date) := (MemoryStore.findDay_congr finished.days user' goal' date).trans
    (recorded.findDay_eq loaded user' goal' date)
  have weeks (user' goal' : Id) (start : Date)
      (other : ¬ (user' = user.id ∧ goal' = goal ∧ start = r.day.date.weekStart ∧
        ¬ w.Enters user.id goal r.day)) : v''.store.findWeek user' goal' start = m.findWeek user' goal' start := by
    refine (finished.findWeek_of_ne ?_).trans (MemoryStore.findWeek_congr recorded.weeks ..)
    rw [MemoryStore.entered?_congr recorded.weeks, keyUser, keyGoal]
    rintro ⟨hu, hg, hs, ne⟩
    exact other ⟨hu, hg, hs, fun enters => ne ((World.enters_iff hm).mp enters)⟩
  refine
    { days := fun user' goal' date => ?_
      saves := ⟨cs, ?_, ?_⟩
      weeks := fun user' goal' start other => ?_
      changed := ⟨p, d, opened, next, (start.facing []).placement_eq.trans answer, recorded.taken, ?_,
        recorded.applied.changed numberedDay.labelled⟩
      late := fun after => ?_
      cached := fun notAfter => ?_
      others := fun _ _ => h.others }
  · rw [h.store, hm]
    refine (congrArg Except.ok (days user' goal' date)).trans ?_
    split <;> rfl
  · rw [saved, Merged.saves, keyUser, keyGoal]
  · rw [← keyUser, ← keyGoal]
    exact week.cases hm
  · rw [h.store, hm]
    exact congrArg Except.ok (weeks user' goal' start other)
  · rintro rfl
    exact recorded.taken.nil_of_opened
  · rw [h.slot, slot, if_pos (late.mpr after)]
  · rw [h.slot, slot, if_neg (notAfter ∘ late.mp)]

end Merge

namespace Sample

/-- Events on two days, the slot emptied in between. -/
def twoDays : List Act :=
  [.merge (user .utc) goal (event 600), .invalidate ⟨1⟩, .merge (user .utc) goal (event 2040)]

/-- A service that merged them. -/
def afterTwoDays : World := (World.fresh .epoch 0).after {} twoDays

/-- An event of the first day that comes after that of the second extends the
activity there, and the slot keeps the second day. -/
theorem late_event_touches_first_day : ∃ r w',
    (Work.merge {} (user .utc) goal (event 603)).exec afterTwoDays = (.ok r, w') ∧
      r.outcome.word = "extended" ∧ afterTwoDays.Touched (user .utc) goal (event 603) r w' ∧
      w'.cache.slot ⟨1⟩ ⟨3⟩ = afterTwoDays.cache.slot ⟨1⟩ ⟨3⟩ := by
  have extended : ((Work.merge {} (user .utc) goal (event 603)).exec afterTwoDays).1.toOption.map
      (·.outcome.word) = some "extended" := by decide +kernel
  have loaded : afterTwoDays.loadedSlot ⟨1⟩ ⟨3⟩ = afterTwoDays.cache.slot ⟨1⟩ ⟨3⟩ := by decide +kernel
  have before : (afterTwoDays.loadedSlot ⟨1⟩ ⟨3⟩).day.any (fun c =>
      (event 603).starts < c.starts ∧ (event 603).starts < c.ends) = true := by decide +kernel
  obtain ⟨c, cached, before⟩ := (Option.any_eq_true ..).mp before
  rcases exec : (Work.merge {} (user .utc) goal (event 603)).exec afterTwoDays with ⟨stop | r, w'⟩
  · rw [exec] at extended
    cases extended
  · rw [exec] at extended
    have touched := merge_touches_one_day {} twoDays .epoch 0 exec
    have late := touched.late ⟨c, cached, of_decide_eq_true before⟩
    exact ⟨r, w', rfl, Option.some.inj extended, touched, late.trans loaded⟩

end Sample
end UsageDiary
