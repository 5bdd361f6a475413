import UsageDiary.Proofs.Merge.Again
import UsageDiary.Proofs.Merge.Rerun

/-!
# Merges that are tried again

A merge that a store call stopped is tried again and ends as it would have
ended at once, up to the ids that the first try drew
(`retried_merge_converges`). Where the first try recorded nothing, the
second goes the same way with later ids (`Rerun`). Where it saved the day,
the second finds that day and is absorbed by it
(`Recorded.recordEvent_again`), and attaches it to its week: a day in time
was cached with its mark, and one that is not is attached every time.
-/

namespace UsageDiary

/-! ## Worlds that agree but for ids -/

/-- Two ends of work on a user and goal come to the same: both in a value
or both without one, with the same stored days and weeks and the same slot,
up to a renaming of ids drawn from `since` on. -/
structure Converges (since : Nat) (user goal : Id) (once again : Except Stop Merged × World) : Prop where
  answered : once.1.isOk = again.1.isOk
  renamed : ∃ ρ : Id → Id, Function.Injective ρ ∧ (∀ id : Id, id.value < since → ρ id = id) ∧
    (∃ m, once.2.store = .memory m ∧ again.2.store = .memory (m.rename ρ)) ∧
    again.2.cache.slot user goal = (once.2.cache.slot user goal).rename ρ

theorem Converges.mono {since since' : Nat} {user goal : Id} {once again : Except Stop Merged × World}
    (h : Converges since user goal once again) (le : since' ≤ since) :
    Converges since' user goal once again := by
  obtain ⟨answered, ρ, injective, keeps, same⟩ := h
  exact ⟨answered, ρ, injective, fun id hid => keeps id (Nat.lt_of_lt_of_le hid le), same⟩

/-- A day whose ids were all drawn before any were skipped is not renamed. -/
theorem Day.Numbered.rename_eq {since skipped : Nat} {d : Day} (h : d.Numbered since) :
    d.rename (Id.shift since skipped) = d :=
  rename_eq_self fun id hid => Id.shift_of_lt (h.ids id hid)

namespace Rerun

variable {t : Rerun}

theorem converges {ok : Merged → Merged → Prop} {once again : Except Stop Merged × World}
    (h : t.tandem.Echoes ok once again) (calm : t.first.outages = []) :
    Converges t.since t.user t.goal once again := by
  have same {w w' : World} (meets : t.tandem.Meets w w') : ∃ ρ : Id → Id, Function.Injective ρ ∧
      (∀ id : Id, id.value < t.since → ρ id = id) ∧
      (∃ m, w.store = .memory m ∧ w'.store = .memory (m.rename ρ)) ∧
      w'.cache.slot t.user t.goal = (w.cache.slot t.user t.goal).rename ρ := by
    obtain ⟨v, _, h, h', rfl, -⟩ := meets
    refine ⟨t.moves, moves_injective, fun id => Id.shift_of_lt, ⟨v.store, h.store, h'.store⟩, ?_⟩
    have slot : w.cache.slot t.user t.goal = v.slot := h.slot
    rw [slot]
    exact h'.slot
  cases h with
  | failed failing => exact absurd calm failing.1
  | done _ meets => exact ⟨rfl, same meets⟩
  | stopped meets => exact ⟨rfl, same meets⟩

/-- Where no ids were skipped, nothing is renamed. -/
theorem moves_eq (h : t.skipped = 0) : t.moves = fun id => id := by
  unfold moves
  rw [h]
  exact funext Id.shift_zero

/-- A scope whose ids were all drawn before any were skipped is the same in
both runs but for the next id. -/
theorem scope_eq {v : Scope} (days : v.store.Numbered t.since) (weeks : v.store.WeeksNumbered t.since)
    (coherent : v.slot.Coherent v.store t.user t.goal) :
    t.scope v = { v with nextId := v.nextId + t.skipped } := by
  have store : v.store.rename t.moves = v.store :=
    MemoryStore.rename_eq_self fun id hid => Id.shift_of_lt (days.ids weeks id hid)
  have slot : v.slot.rename t.moves = v.slot :=
    Slot.rename_eq_self fun id hid => Id.shift_of_lt (coherent.ids days id hid)
  unfold scope
  rw [store, slot]

end Rerun

/-! ## Starting over -/

section Start

variable {base w w' : World} {user goal : Id} {v : Scope}

/-- The world with these outages from now on. -/
def World.facing (w : World) (outages : List Outage) : World := { w with outages := outages }

/-- Work starts over, whatever outages it faces. -/
theorem World.At.facing (h : base.At user goal v w) (outages : List Outage) :
    (w.facing outages).At user goal v (w.facing outages) :=
  ⟨h.store, h.slot, h.nextId, fun _ => rfl, id⟩

/-- The last day is looked up once. -/
theorem Scope.load_of_loaded (h : v.slot.loaded = true) (user goal : Id) : v.load user goal = v := by
  unfold load
  rw [if_pos h]

end Start

section Retry

variable {s : Settings} {user : User} {goal : Id} {e : UsageEvent} {base base' w w' : World}
  {v v' : Scope} {next : Nat}

/-- A merge goes the same way from a scope that differs in the next id and
in whether the last day was looked up. -/
theorem converges_of_unrecorded (h : base.At user.id goal v w) (calm : base.outages = [])
    (h' : base'.At user.id goal v' w') (calm' : base'.outages = [])
    (loads : v'.load user.id goal = { v.load user.id goal with nextId := next }) (le : v.nextId ≤ next)
    (days : v.store.Numbered v.nextId) (weeks : v.store.WeeksNumbered v.nextId)
    (coherent : v.slot.Coherent v.store user.id goal) :
    Converges v.nextId user.id goal ((Work.merge s user goal e).exec w)
      ((Work.merge s user goal e).exec w') := by
  obtain ⟨w₁, exec, h₁⟩ := Work.loadedSlot_calm h calm
  obtain ⟨w₁', exec', h₁'⟩ := Work.loadedSlot_calm h' calm'
  let t : Rerun := ⟨base, base', user.id, goal, v.nextId, next - v.nextId, calm'⟩
  have scope : t.scope (v.load user.id goal) = v'.load user.id goal := by
    rw [Rerun.scope_eq (t := t) (v := v.load user.id goal) days weeks (Scope.load_coherent coherent), loads]
    exact congrArg (Scope.mk _ _) (Nat.add_sub_cancel' le)
  have meets : t.tandem.Meets w₁ w₁' := ⟨_, _, h₁, scope ▸ h₁', rfl, Nat.le_refl _⟩
  have slot : (v'.load user.id goal).slot = (v.load user.id goal).slot.rename t.moves :=
    congrArg Scope.slot scope.symm
  rw [Work.merge_eq, Work.exec_bind_of_ok exec, Work.exec_bind_of_ok exec', slot]
  exact Rerun.converges (t.tandem.echoes_loaded s rfl e (Scope.load_own coherent.own) h₁ meets) calm

/-- The placement of a recorded event is what the store answers. -/
theorem Work.recordEvent_place (h : base.At user.id goal v w) :
    WP (recordEvent s v.slot user goal e) w
      (fun recorded _ => v.store.place user goal e.starts v.slot.day = .ok recorded.1)
      fun _ _ => True := by
  unfold recordEvent
  refine (place_answers h).bind (fun p w₁ ⟨answer, _⟩ => ?_) fun _ _ _ => trivial
  refine (any _ w₁).bind (fun _ w₂ _ => ?_) fun _ _ => id
  refine (any _ w₂).bind (fun (d, opened) w₃ _ => ?_) fun _ _ => id
  refine WP.ite_bind (fun _ => True) (fun _ => any _ w₃) (fun _ => trivial) (fun w₄ _ => ?_) fun _ _ => id
  refine (any _ w₄).bind (fun r w₅ _ => ?_) fun _ _ => id
  exact WP.ite_bind (fun _ => True) (fun _ => any _ w₅) (fun _ => trivial) (fun _ _ => WP.pure answer)
    fun _ _ => id

/-- What is recorded in spite of outages is recorded without them. -/
theorem recordEvent_calm (h : base.At user.id goal v w) (h' : base'.At user.id goal v w')
    (calm : base'.outages = []) {recorded : Placement × Merged} {w₁ : World}
    (exec : (Work.recordEvent s v.slot user goal e).exec w = (.ok recorded, w₁))
    (h₁ : base.At user.id goal v' w₁) :
    ∃ w₁', (Work.recordEvent s v.slot user goal e).exec w' = (.ok recorded, w₁') ∧
      base'.At user.id goal v' w₁' := by
  let t : Rerun := ⟨base, base', user.id, goal, 0, 0, calm⟩
  have moves : t.moves = fun id => id := Rerun.moves_eq rfl
  have scope (v : Scope) : t.scope v = v := by
    unfold Rerun.scope
    rw [moves, MemoryStore.rename_same, Slot.rename_same]
    rfl
  have meets : t.tandem.Meets w w' := ⟨v, v, h, h', (scope v).symm, Nat.zero_le _⟩
  have echoes : t.tandem.Echoes (fun r r' => r' = (r.1.rename t.moves, r.2.rename t.moves))
      ((Work.recordEvent s v.slot user goal e).exec w)
      ((Work.recordEvent s (v.slot.rename t.moves) user goal e).exec w') :=
    Tandem.echoes_recordEvent rfl s v.slot e meets
  rw [exec, moves, Slot.rename_same] at echoes
  generalize (Work.recordEvent s v.slot user goal e).exec w' = second at echoes ⊢
  cases echoes with
  | done same meets =>
    obtain ⟨v₁, _, at₁, at₁', rfl, -⟩ := meets
    cases at₁.eq h₁
    rw [Placement.rename_same, Merged.rename_same] at same
    cases same
    rw [scope] at at₁'
    exact ⟨_, rfl, at₁'⟩

/-- The last day stays looked up when an event is recorded. -/
theorem Recorded.loaded {p : Placement} {d : Day} {opened : Bool} {r : Merged}
    (h : Recorded s user goal e v p d opened next r v') (loaded : v.slot.loaded = true) :
    v'.slot.loaded = true := by
  rw [h.slot]
  split
  · exact loaded
  · rfl

/-- Settling a day caches it unless the event came late, and goes on to
attach it. -/
theorem Work.settle_exec (slot : Slot) (p : Placement) (r : Merged) (h : base.At user.id goal v w) :
    ∃ w₁, base.At user.id goal { v with slot := if p.lookup.isLate then v.slot else slot.replace r.day } w₁ ∧
      (settle slot user.id goal p r).exec w = exec (do
        attachPending user.id goal (p.lookup.attaches slot) (!p.lookup.isLate) r.day
        report (mergedEvent user.id goal r.outcome)
        return r) w₁ := by
  unfold settle
  cases p.lookup.isLate with
  | true => exact ⟨w, h, rfl⟩
  | false =>
    obtain ⟨_, w₁, exec, h₁⟩ := (setSlot_ok (slot.replace r.day) h).exists_ok fun _ _ => id
    exact ⟨w₁, h₁, exec_bind_of_ok exec _⟩

namespace Recorded

variable {p : Placement} {d : Day} {opened : Bool} {r : Merged} {next' : Nat}

theorem isLate_lookupAgain (p : Placement) (r : Merged) :
    (lookupAgain p r).isLate = p.lookup.isLate := by
  unfold lookupAgain
  split
  · next late => rw [late]; rfl
  · next inTime => rw [Bool.not_eq_true] at inTime; rw [inTime]; rfl

/-- A recorded day that has still to be attached is attached when it is
found again. -/
theorem attaches_again (h : Recorded s user goal e v p d opened next r v')
    (coherent : v.slot.Coherent v.store user.id goal) (numbered : v.store.Numbered v.nextId)
    (attaches : p.lookup.attaches v.slot = true) : (lookupAgain p r).attaches v'.slot = true := by
  unfold lookupAgain
  split
  · rfl
  · next inTime => rw [h.slot_of_attaches coherent numbered (by simpa using inTime) attaches]; rfl

/-- A recorded day is cached once. -/
theorem slot_again (h : Recorded s user goal e v p d opened next r v') :
    (if (lookupAgain p r).isLate then v'.slot else v'.slot.replace r.day) = v'.slot := by
  rw [isLate_lookupAgain]
  split
  · rfl
  · next inTime =>
    rw [h.slot, if_neg inTime]
    exact Slot.replace_of_day rfl rfl

theorem coherent (h : Recorded s user goal e v p d opened next r v') (loaded : v.slot.loaded = true)
    (coherent : v.slot.Coherent v.store user.id goal) : v'.slot.Coherent v'.store user.id goal := by
  rw [← Scope.load_of_loaded loaded user.id goal] at h
  exact (Moved.recorded h rfl ⟨rfl, rfl⟩).coherent coherent

/-- A day that was recorded once and then found again is settled the same
way, as it is attached to its week either way. -/
theorem settle_again (recorded : Recorded s user goal e v p d opened next r v')
    (loaded : v.slot.loaded = true) (coherent : v.slot.Coherent v.store user.id goal)
    (numbered : v.store.Numbered v.nextId) (weeks : v.store.WeeksNumbered v.nextId)
    (attaches : p.lookup.attaches v.slot = true) (h : base.At user.id goal { v' with slot := v.slot } w)
    (calm : base.outages = []) (h' : base'.At user.id goal { v' with nextId := next' } w')
    (calm' : base'.outages = []) (le : v'.nextId ≤ next') (a : Activity) :
    Converges v'.nextId user.id goal ((Work.settle v.slot user.id goal p r).exec w)
      ((Work.settle v'.slot user.id goal ⟨lookupAgain p r, r.day.zone, r.day.date⟩
        ⟨.absorbed a, r.day⟩).exec w') := by
  obtain ⟨w₁, h₁, once⟩ := Work.settle_exec v.slot p r h
  obtain ⟨w₁', h₁', again⟩ := Work.settle_exec v'.slot
    ⟨lookupAgain p r, r.day.zone, r.day.date⟩ ⟨.absorbed a, r.day⟩ h'
  rw [once, again, attaches, recorded.attaches_again coherent numbered attaches, isLate_lookupAgain]
  rw [← recorded.slot] at h₁
  rw [recorded.slot_again] at h₁'
  let t : Rerun := ⟨base, base', user.id, goal, v'.nextId, next' - v'.nextId, calm'⟩
  have scope : t.scope v' = { v' with nextId := next' } := by
    rw [Rerun.scope_eq (t := t) (v := v') (recorded.numbered coherent numbered)
      (recorded.weeksNumbered weeks) (recorded.coherent loaded coherent)]
    exact congrArg (Scope.mk _ _) (Nat.add_sub_cancel' le)
  have meets : t.tandem.Meets w₁ w₁' := ⟨v', _, h₁, h₁', scope.symm, Nat.le_refl _⟩
  have day : r.day.rename t.moves = r.day := (recorded.drawn coherent numbered).rename_eq
  refine Rerun.converges (?_ : t.tandem.Echoes (fun _ _ => True) _ _) calm
  have attached := Tandem.echoes_attachPending (t := t.tandem) true (!p.lookup.isLate)
    (recorded.day_key coherent.own) meets
  rw [show r.day.rename t.tandem.moves = r.day from day] at attached
  refine attached.bind fun _ _ w₂ w₂' _ meets₂ => ?_
  exact (Tandem.echoes_report _ _ meets₂).bind fun _ _ _ _ _ => .done trivial

end Recorded
end Retry

/-! ## Trying again -/

namespace World

/-- Where an instant is placed for a user and goal, if no call fails. -/
def placement (w : World) (user : User) (goal : Id) (t : Instant) : Except Stop Placement :=
  (Work.exec (do Work.place (← Work.loadedSlot user.id goal) user goal t) (w.facing [])).1

/-- An event does not start before the activity of its device that starts
last in the day that it is placed in. -/
def InOrder (w : World) (user : User) (goal : Id) (e : UsageEvent) : Prop :=
  ∀ p, w.placement user goal e.starts = .ok p → ∀ d, p.lookup.day? = some d →
    ∀ last, d.last? e.device = some last → last.starts ≤ e.starts

variable {s : Settings} {zones : List Zone} {user : User} {goal : Id} {e : UsageEvent} {w w' : World}

theorem At.placement_eq {v : Scope}
    (h : (w.facing []).At user.id goal v (w.facing [])) {t : Instant} :
    w.placement user goal t =
      (v.load user.id goal).store.place user goal t (v.load user.id goal).slot.day := by
  obtain ⟨w₁, exec, h₁⟩ := Work.loadedSlot_calm h rfl
  have answers := @Work.place_answers _ _ user goal _ _ _ (v.load user.id goal).slot t h₁
  unfold placement
  rw [Work.exec_bind_of_ok exec]
  unfold Work.WP at answers
  generalize (Work.place (v.load user.id goal).slot user goal t).exec w₁ = ended at answers ⊢
  obtain ⟨stop | p, w₂⟩ := ended
  · exact (answers.1.resolve_left fun failing => failing.1 rfl).symm
  · exact answers.1.symm

theorem InOrder.last (inOrder : w.InOrder user goal e) {v v' : Scope}
    (h : (w.facing []).At user.id goal v (w.facing [])) {p : Placement} {d : Day}
    {opened : Bool} {next : Nat} {r : Merged}
    (recorded : Recorded s user goal e (v.load user.id goal) p d opened next r v')
    (answer : (v.load user.id goal).store.place user goal e.starts (v.load user.id goal).slot.day = .ok p)
    (last : Activity) (hlast : d.last? e.device = some last) : last.starts ≤ e.starts := by
  cases opened with
  | false =>
    cases recorded.taken with
    | kept day => exact inOrder p (h.placement_eq.trans answer) d day last hlast
  | true =>
    have mem := Day.mem_of_last? hlast
    rw [recorded.taken.nil_of_opened] at mem
    cases mem

/-- A merge that recorded its event and stopped before the day was attached
ends, tried again, as it would have ended at once. -/
theorem InOrder.converges_of_recorded (inOrder : w.InOrder user goal e) (timed : s.Timed) {v v' : Scope}
    {base w₁ w₂ : World} {p : Placement} {d : Day} {opened : Bool} {next next' : Nat} {r : Merged}
    (start : (w.facing []).At user.id goal v (w.facing []))
    (coherent : v.slot.Coherent v.store user.id goal) (days : v.store.Numbered v.nextId)
    (weeks : v.store.WeeksNumbered v.nextId)
    (recorded : Recorded s user goal e (v.load user.id goal) p d opened next r v')
    (takes : d.Takes e next) (tidy : d.Tidy s) (ordered : e.starts ≤ e.ends)
    (h₁ : base.At user.id goal (v.load user.id goal) w₁)
    (record : (Work.recordEvent s (v.load user.id goal).slot user goal e).exec w₁ = (.ok (p, r), w₂))
    (h₂ : base.At user.id goal { v' with slot := (v.load user.id goal).slot } w₂)
    (attaches : p.lookup.attaches (v.load user.id goal).slot = true)
    (h' : base.At user.id goal { v' with nextId := next' } w') (le : v'.nextId ≤ next') :
    Converges v.nextId user.id goal ((Work.merge s user goal e).exec (w.facing []))
      ((Work.merge s user goal e).exec (w'.facing [])) := by
  have coherent := Scope.load_coherent coherent
  have loaded := v.load_loaded user.id goal
  have answer := (Work.recordEvent_place h₁).of_exec record
  obtain ⟨u₁, loads, at₁⟩ := Work.loadedSlot_calm start rfl
  obtain ⟨u₂, records, at₂⟩ := recordEvent_calm h₁ at₁ rfl record h₂
  obtain ⟨u₁', loads', at₁'⟩ := Work.loadedSlot_calm (h'.facing []) rfl
  rw [Scope.load_of_loaded (v := { v' with nextId := next' }) (recorded.loaded loaded)] at loads' at₁'
  obtain ⟨u₂', records', at₂'⟩ := recorded.recordEvent_again timed takes tidy ordered
    (inOrder.last start recorded answer) at₁' rfl (recorded.place_again coherent takes.covers answer)
  rw [Work.merge_eq, Work.exec_bind_of_ok loads, Work.exec_bind_of_ok loads',
    Work.exec_bind_of_ok records, Work.exec_bind_of_ok records']
  exact (recorded.settle_again loaded coherent days weeks attaches at₂ rfl at₂' rfl le _).mono recorded.le

/-- A merge that a store call stopped ends, tried again, as it would have
ended at once. -/
theorem Keeps.retried (keeps : w.Keeps zones user.id (Day.Tidy s)) (weeks : w.WeeksNumbered)
    (timed : s.Timed) (regular : ∀ z ∈ zones, z.Regular)
    (plain : (Act.merge user goal e).Plain zones user.id) (ordered : e.starts ≤ e.ends)
    (inOrder : w.InOrder user goal e) {outages : List Outage} {stop : Stop}
    (failed : (Work.merge s user goal e).exec (w.facing outages) = (.error stop, w')) :
    Converges w.nextId user.id goal ((Work.merge s user goal e).exec (w.facing []))
      ((Work.merge s user goal e).exec (w'.facing [])) := by
  obtain ⟨m, hm, coherent⟩ := keeps.coherent
  have coherent := coherent user.id goal
  have days := keeps.numbered.of_memory hm
  have weeks := weeks.of_memory hm
  have start := (at_self hm user.id goal).facing []
  have faulty := (at_self hm user.id goal).facing outages
  rw [Work.merge_eq, Work.exec_bind] at failed
  rcases load : (Work.loadedSlot user.id goal).exec (w.facing outages) with ⟨stop | slot, w₁⟩ <;>
    rw [load] at failed
  · -- The last day could not be looked up.
    cases failed
    have unloaded := (Work.loadedSlot_ok faulty).of_exec_error load
    exact converges_of_unrecorded start rfl (unloaded.2.facing []) rfl rfl (Nat.le_refl _) days weeks coherent
  obtain ⟨rfl, h₁⟩ := (Work.loadedSlot_ok faulty).of_exec load
  simp only [Work.exec_bind] at failed
  rcases record : (Work.recordEvent s _ user goal e).exec w₁ with ⟨stop | ⟨p, r⟩, w₂⟩ <;>
    rw [record] at failed
  · -- The event was not recorded.
    cases failed
    obtain ⟨-, next, le, h₂⟩ := (Work.recordEvent_ok h₁).of_exec_error record
    exact converges_of_unrecorded start rfl (h₂.facing []) rfl
      (Scope.load_of_loaded (Scope.load_loaded ⟨m, w.cache.slot user.id goal, next⟩ user.id goal) ..) le
      days weeks coherent
  · -- The day was saved, but not attached.
    obtain ⟨d, opened, next, v', recorded, h₂⟩ := (Work.recordEvent_ok h₁).of_exec record
    obtain ⟨-, refused, next', le, h₃⟩ := (Work.settle_ok recorded h₂).of_exec_error failed
    obtain ⟨-, takes, tidy⟩ := keeps.takes regular (fun _ => .of_nil) hm plain rfl recorded
    exact inOrder.converges_of_recorded timed start coherent days weeks recorded takes tidy ordered h₁
      record h₂ refused.attaches h₃ le

end World

/-- However events were merged, slots emptied and store calls failed before,
in regular zones: a merge that stopped and is tried again without an outage
leaves the days, the weeks and the slot as it would have left them at once,
up to ids drawn since. The event must not start before the last activity of
its device in the day that it is placed in. -/
theorem retried_merge_converges (zones : Id → List Zone) (regular : ∀ user, ∀ z ∈ zones user, z.Regular)
    {s : Settings} (valid : s.validate = .ok ()) (combine : s.combineMillis < 9223372036854775808)
    (now : Instant) (nextId : Nat) {acts : List Act} (uses : ∀ a ∈ acts, a.Uses zones)
    (events : ∀ user goal e, .merge user goal e ∈ acts → e.starts.Ordinary ∧ e.ends.Ordinary)
    {user : User} (goal : Id) {e : UsageEvent} (zone : user.zone ∈ zones user.id)
    (ordinary : e.starts.Ordinary ∧ e.ends.Ordinary) (ordered : e.starts ≤ e.ends)
    (inOrder : ((World.fresh now nextId).after s acts).InOrder user goal e) {outages : List Outage}
    {stop : Stop} {w' : World}
    (failed : (Work.merge s user goal e).exec (((World.fresh now nextId).after s acts).facing outages) =
      (.error stop, w')) :
    let w := (World.fresh now nextId).after s acts
    Converges w.nextId user.id goal ((Work.merge s user goal e).exec (w.facing []))
      ((Work.merge s user goal e).exec (w'.facing [])) := by
  have timed := Settings.timed_of_validate valid combine
  have plain (a : Act) (ha : a ∈ acts) : a.Plain (zones user.id) user.id :=
    (uses a ha).plain (fun u g e same => events u g e (same ▸ ha)) user.id
  have keeps := World.tidy_after timed (regular user.id) now nextId plain
  exact keeps.retried (World.weeksNumbered_after now nextId acts) timed (regular user.id)
    (fun _ => ⟨zone, ordinary⟩) ordered inOrder failed

namespace Sample

/-- A service that merged an event. -/
def begun : World := (World.fresh .epoch 0).after {} [.merge (user .utc) goal (event 600)]

/-- The event of the next day, whose week cannot be saved. -/
def refusedWeek : Except Stop Merged × World :=
  (Work.merge {} (user .utc) goal (event 1500)).exec (begun.facing [⟨.saveWeek, 0, 1, .database, []⟩])

/-- The week that could not be saved is made up for. -/
theorem refused_week_converges : refusedWeek.1.isOk = false ∧ refusedWeek.2.store ≠ begun.store ∧
    Converges begun.nextId ⟨1⟩ goal ((Work.merge {} (user .utc) goal (event 1500)).exec (begun.facing []))
      ((Work.merge {} (user .utc) goal (event 1500)).exec (refusedWeek.2.facing [])) := by
  have saved : refusedWeek.2.store ≠ begun.store := by decide +kernel
  have inOrder : begun.InOrder (user .utc) goal (event 1500) := by
    have opens : (begun.placement (user .utc) goal (event 1500).starts).toOption.bind (·.lookup.day?) =
        none := by decide +kernel
    intro p hp d hd
    rw [hp] at opens
    cases opens.symm.trans hd
  have failed : refusedWeek.1.isOk = false := by decide +kernel
  have events : ∀ u g e, .merge u g e ∈ [Act.merge (user .utc) goal (event 600)] →
      e.starts.Ordinary ∧ e.ends.Ordinary := by
    intro u g e he
    simp only [List.mem_singleton, Act.merge.injEq] at he
    obtain ⟨-, -, rfl⟩ := he
    decide +kernel
  rcases exec : refusedWeek with ⟨stop | r, w'⟩
  · rw [exec] at saved
    refine ⟨rfl, saved, ?_⟩
    exact retried_merge_converges (fun _ => [.utc]) (fun _ => by simpa using Zone.regular_utc) (s := {})
      (by decide) (by decide) .epoch 0 (by simp [Act.Uses, user]) events goal (by simp [user])
      (by decide +kernel) (by decide +kernel) inOrder exec
  · rw [exec] at failed
    cases failed

end Sample
end UsageDiary
