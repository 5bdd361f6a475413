import UsageDiary.Proofs.Merge.Effect
import UsageDiary.Proofs.Support

/-!
# Two runs in tandem

Work on a user and goal is run in two worlds, without outages in the second.
`Tandem` says when the two worlds have scopes that are the same to a merge,
up to a renaming of ids: a merge reads the same from both, and they stay so
with what it writes. From such worlds both runs end in the same value or
stop for the same reason, up to the renaming, and again in such worlds,
unless a call of the first run fails (`Tandem.Echoes`). Such work is put
together by `Echoes.bind`, and each step has a lemma named for it, up to the
whole merge (`echoes_merge`).
-/

namespace UsageDiary

/-- Runs of work on a user and goal in two worlds, and when their scopes are
the same to a merge. -/
structure Tandem where
  first : World
  second : World
  user : Id
  goal : Id
  /-- The ids of the first run in the second. -/
  moves : Id → Id
  same : Scope → Scope → Prop
  calm : second.outages = []
  injective : Function.Injective moves
  slot {v v' : Scope} : same v v' → v'.slot = v.slot.rename moves
  fresh {v v' : Scope} : same v v' → ⟨v'.nextId⟩ = moves ⟨v.nextId⟩
  findLast {v v' : Scope} : same v v' →
    v'.store.findLast user goal = (v.store.findLast user goal).map (·.rename moves)
  findWeek {v v' : Scope} (start : Date) : same v v' →
    v'.store.findWeek user goal start = (v.store.findWeek user goal start).map (·.rename moves)
  place {v v' : Scope} {u : User} (t : Instant) (cached : Option Day) : u.id = user → same v v' →
    v'.store.place u goal t (cached.map (·.rename moves)) =
      (v.store.place u goal t cached).map (·.rename moves)
  draw {v v' : Scope} : same v v' →
    same { v with nextId := v.nextId + 1 } { v' with nextId := v'.nextId + 1 }
  setSlot {v v' : Scope} (s : Slot) : same v v' →
    same { v with slot := s } { v' with slot := s.rename moves }
  saveDay {v v' : Scope} (d : Day) : same v v' →
    same { v with store := v.store.saveDay d } { v' with store := v'.store.saveDay (d.rename moves) }
  saveWeek {v v' : Scope} (week : Week) : same v v' →
    same { v with store := v.store.saveWeek week } { v' with store := v'.store.saveWeek (week.rename moves) }

namespace Tandem

variable (t : Tandem)

/-- The two runs have come to worlds that are the same to a merge. -/
def Meets (w w' : World) : Prop :=
  ∃ v v', t.first.At t.user t.goal v w ∧ t.second.At t.user t.goal v' w' ∧ t.same v v'

/-- How two runs end that meet again: in values that `ok` relates, or both
for the same reason without one, unless a call of the first run failed. -/
inductive Echoes {α β : Type} (ok : α → β → Prop) : Except Stop α × World → Except Stop β × World → Prop where
  | failed {stop : Stop} {w : World} {r' : Except Stop β × World} (h : t.first.Failing stop) :
      Echoes ok (.error stop, w) r'
  | done {a : α} {b : β} {w w' : World} (h : ok a b) (meets : t.Meets w w') : Echoes ok (.ok a, w) (.ok b, w')
  | stopped {stop : Stop} {w w' : World} (meets : t.Meets w w') :
      Echoes ok (.error stop, w) (.error (stop.rename t.moves), w')

variable {t : Tandem} {α β γ δ : Type} {x : Work α} {y : Work β} {w w' : World} {v v' : Scope}

namespace Echoes

variable {ok : α → β → Prop} {ok' : γ → δ → Prop}

/-- Work goes on from the values of a step, with what is known of the value
of the first run. -/
theorem bind_wp {okx : α → World → Prop} {errx : Stop → World → Prop} {f : α → Work γ} {g : β → Work δ}
    (h : t.Echoes ok (x.exec w) (y.exec w')) (hx : Work.WP x w okx errx)
    (hok : ∀ a b w₁ w₁', ok a b → okx a w₁ → t.Meets w₁ w₁' →
      t.Echoes ok' ((f a).exec w₁) ((g b).exec w₁')) :
    t.Echoes ok' ((x >>= f).exec w) ((y >>= g).exec w') := by
  unfold Work.WP at hx
  rw [Work.exec_bind, Work.exec_bind]
  generalize x.exec w = first at h hx ⊢
  generalize y.exec w' = second at h ⊢
  cases h with
  | failed h => exact .failed h
  | done h meets => exact hok _ _ _ _ h hx meets
  | stopped meets => exact .stopped meets

theorem bind {f : α → Work γ} {g : β → Work δ} (h : t.Echoes ok (x.exec w) (y.exec w'))
    (hok : ∀ a b w₁ w₁', ok a b → t.Meets w₁ w₁' → t.Echoes ok' ((f a).exec w₁) ((g b).exec w₁')) :
    t.Echoes ok' ((x >>= f).exec w) ((y >>= g).exec w') :=
  h.bind_wp (Work.any x w) fun a b w₁ w₁' h _ => hok a b w₁ w₁' h

theorem pure {a : α} {b : β} (h : ok a b) (meets : t.Meets w w') :
    t.Echoes ok ((Pure.pure a : Work α).exec w) ((Pure.pure b : Work β).exec w') := .done h meets

theorem ite {c : Prop} [Decidable c] {x₁ x₂ : Work α} {y₁ y₂ : Work β}
    (h₁ : c → t.Echoes ok (x₁.exec w) (y₁.exec w')) (h₂ : ¬ c → t.Echoes ok (x₂.exec w) (y₂.exec w')) :
    t.Echoes ok ((if c then x₁ else x₂).exec w) ((if c then y₁ else y₂).exec w') := by
  by_cases h : c
  · rw [if_pos h, if_pos h]
    exact h₁ h
  · rw [if_neg h, if_neg h]
    exact h₂ h

/-- A step that is taken under a condition, and the work after it. -/
theorem ite_bind {c : Prop} [Decidable c] {x y : Work Unit} {k : Unit → Work γ} {l : Unit → Work δ}
    (meets : t.Meets w w') (h : c → t.Echoes (fun _ _ => True) (x.exec w) (y.exec w'))
    (hok : ∀ w₁ w₁', t.Meets w₁ w₁' → t.Echoes ok' ((k ()).exec w₁) ((l ()).exec w₁')) :
    t.Echoes ok' ((if c then x >>= k else k ()).exec w) ((if c then y >>= l else l ()).exec w') :=
  .ite (fun hc => (h hc).bind fun _ _ _ _ _ => hok _ _) fun _ => hok _ _ meets

/-- Work that is said to end in a value unless a call fails echoes where
these values do. -/
theorem of_wp {okx : α → World → Prop} {errx : Stop → World → Prop} {oky : β → World → Prop}
    {erry : Stop → World → Prop} (hx : Work.WP x w okx errx) (hy : Work.WP y w' oky erry)
    (failing : ∀ stop w₁, errx stop w₁ → t.first.Failing stop)
    (failing' : ∀ stop w₁, erry stop w₁ → t.second.Failing stop)
    (both : ∀ a b w₁ w₁', okx a w₁ → oky b w₁' → ok a b ∧ t.Meets w₁ w₁') :
    t.Echoes ok (x.exec w) (y.exec w') := by
  unfold Work.WP at hx hy
  rcases hex : x.exec w with ⟨stop | a, w₁⟩ <;> rw [hex] at hx
  · exact .failed (failing stop w₁ hx)
  · rcases hey : y.exec w' with ⟨stop | b, w₁'⟩ <;> rw [hey] at hy
    · exact absurd t.calm (failing' stop w₁' hy).1
    · obtain ⟨h, meets⟩ := both a b w₁ w₁' hx hy
      exact .done h meets

end Echoes

/-! ## Steps -/

section Steps

theorem echoes_report (e e' : LogEvent) (meets : t.Meets w w') :
    t.Echoes (fun _ _ => True) ((Work.report e).exec w) ((Work.report e').exec w') := by
  obtain ⟨v, v', h, h', same⟩ := meets
  exact .of_wp (Work.report_ok e h) (Work.report_ok e' h') (fun _ _ => False.elim)
    (fun _ _ => False.elim) fun _ _ _ _ h₁ h₁' => ⟨trivial, v, v', h₁, h₁', same⟩

theorem echoes_freshId (meets : t.Meets w w') :
    t.Echoes (fun id id' => id' = t.moves id) (Work.freshId.exec w) (Work.freshId.exec w') := by
  obtain ⟨v, v', h, h', same⟩ := meets
  refine .of_wp (Work.freshId_ok h) (Work.freshId_ok h') (fun _ _ => False.elim) (fun _ _ => False.elim)
    fun id id' w₁ w₁' ⟨hid, h₁⟩ ⟨hid', h₁'⟩ => ⟨?_, _, _, h₁, h₁', t.draw same⟩
  rw [hid, hid', t.fresh same]

theorem echoes_setSlot (slot : Slot) (meets : t.Meets w w') :
    t.Echoes (fun _ _ => True) ((Work.setSlot t.user t.goal slot).exec w)
      ((Work.setSlot t.user t.goal (slot.rename t.moves)).exec w') := by
  obtain ⟨v, v', h, h', same⟩ := meets
  exact .of_wp (Work.setSlot_ok slot h) (Work.setSlot_ok _ h') (fun _ _ => False.elim)
    (fun _ _ => False.elim) fun _ _ _ _ h₁ h₁' => ⟨trivial, _, _, h₁, h₁', t.setSlot slot same⟩

theorem echoes_openSlot (meets : t.Meets w w') :
    t.Echoes (fun slot slot' => slot' = slot.rename t.moves) ((Work.openSlot t.user t.goal).exec w)
      ((Work.openSlot t.user t.goal).exec w') := by
  obtain ⟨v, v', h, h', same⟩ := meets
  exact .of_wp (Work.openSlot_ok h) (Work.openSlot_ok h') (fun _ _ => False.elim) (fun _ _ => False.elim)
    fun _ _ _ _ ⟨hslot, h₁⟩ ⟨hslot', h₁'⟩ =>
      ⟨by rw [hslot, hslot']; exact t.slot same, v, v', h₁, h₁', same⟩

theorem echoes_inRange {a? : Option α} {b? : Option β} {f : α → β} (h : b? = a?.map f)
    (meets : t.Meets w w') :
    t.Echoes (fun a b => b = f a) ((Work.inRange a?).exec w) ((Work.inRange b?).exec w') := by
  subst h
  cases a? with
  | none => exact .stopped meets
  | some a => exact .done rfl meets

theorem echoes_ofZone {r : Except ZoneError α} {f : α → β} (meets : t.Meets w w') :
    t.Echoes (fun a b => b = f a) ((Work.ofZone r).exec w) ((Work.ofZone (r.map f)).exec w') := by
  cases r with
  | error e => exact .stopped meets
  | ok a => exact .done rfl meets

theorem echoes_respecting {r : Except Violation α} {r' : Except Violation β} {f : α → β}
    (h : r' = (r.map f).mapError (·.rename t.moves)) (meets : t.Meets w w') :
    t.Echoes (fun a b => b = f a) ((Work.respecting r).exec w) ((Work.respecting r').exec w') := by
  subst h
  cases r with
  | error e => exact (echoes_report _ _ meets).bind fun _ _ _ _ _ => .stopped
  | ok a => exact .done rfl meets

theorem echoes_findLast (meets : t.Meets w w') :
    t.Echoes (fun d? d?' => d?' = d?.map (·.rename t.moves)) ((Work.findLast t.user t.goal).exec w)
      ((Work.findLast t.user t.goal).exec w') := by
  obtain ⟨v, v', h, h', same⟩ := meets
  refine .of_wp (Work.findLast_ok _ _ h) (Work.findLast_ok _ _ h') (fun _ _ => And.left)
    (fun _ _ => And.left) fun _ _ _ _ ⟨hlast, h₁⟩ ⟨hlast', h₁'⟩ => ⟨?_, v, v', h₁, h₁', same⟩
  rw [hlast, hlast']
  exact t.findLast same

theorem echoes_findWeek (start : Date) (meets : t.Meets w w') :
    t.Echoes (fun week? week?' => week?' = week?.map (·.rename t.moves))
      ((Work.findWeek t.user t.goal start).exec w) ((Work.findWeek t.user t.goal start).exec w') := by
  obtain ⟨v, v', h, h', same⟩ := meets
  refine .of_wp (Work.findWeek_ok _ _ start h) (Work.findWeek_ok _ _ start h')
    (fun _ _ => And.left) (fun _ _ => And.left)
    fun _ _ _ _ ⟨hweek, h₁⟩ ⟨hweek', h₁'⟩ => ⟨?_, v, v', h₁, h₁', same⟩
  rw [hweek, hweek']
  exact t.findWeek start same

theorem echoes_saveDay (d : Day) (meets : t.Meets w w') :
    t.Echoes (fun _ _ => True) ((Work.saveDay d).exec w) ((Work.saveDay (d.rename t.moves)).exec w') := by
  obtain ⟨v, v', h, h', same⟩ := meets
  exact .of_wp (Work.saveDay_ok d h) (Work.saveDay_ok _ h') (fun _ _ => And.left) (fun _ _ => And.left)
    fun _ _ _ _ h₁ h₁' => ⟨trivial, _, _, h₁, h₁', t.saveDay d same⟩

theorem echoes_saveWeek (week : Week) (meets : t.Meets w w') :
    t.Echoes (fun _ _ => True) ((Work.saveWeek week).exec w)
      ((Work.saveWeek (week.rename t.moves)).exec w') := by
  obtain ⟨v, v', h, h', same⟩ := meets
  exact .of_wp (Work.saveWeek_ok week h) (Work.saveWeek_ok _ h') (fun _ _ => And.left)
    (fun _ _ => And.left) fun _ _ _ _ h₁ h₁' => ⟨trivial, _, _, h₁, h₁', t.saveWeek week same⟩

/-- The last day is looked up alike. -/
theorem echoes_loadedSlot (meets : t.Meets w w') :
    t.Echoes (fun slot slot' => slot' = slot.rename t.moves) ((Work.loadedSlot t.user t.goal).exec w)
      ((Work.loadedSlot t.user t.goal).exec w') := by
  unfold Work.loadedSlot
  refine (echoes_openSlot meets).bind fun slot _ w₁ w₁' same meets₁ => ?_
  subst same
  refine .ite (fun _ => .pure rfl meets₁) fun _ => ?_
  refine (echoes_findLast meets₁).bind fun last _ w₂ w₂' same meets₂ => ?_
  subst same
  rw [Slot.load_rename]
  refine (echoes_setSlot (slot.load last) meets₂).bind fun _ _ w₃ w₃' _ meets₃ => ?_
  exact .pure rfl meets₃

end Steps

/-! ## Recording an event -/

section Record

/-- Work that answers the same up to the ids of its answer echoes. -/
theorem Echoes.of_answers {r : Except Stop α} {f : α → β} (same : t.same v v')
    (hx : Work.WP x w (fun a w₁ => r = .ok a ∧ t.first.At t.user t.goal v w₁)
      fun stop w₁ => (t.first.Failing stop ∨ r = .error stop) ∧ t.first.At t.user t.goal v w₁)
    (hy : Work.WP y w' (fun b w₁' => r.map f = .ok b ∧ t.second.At t.user t.goal v' w₁')
      fun stop w₁' => (t.second.Failing stop ∨ r.map f = .error stop) ∧ t.second.At t.user t.goal v' w₁')
    (stops : ∀ stop, r = .error stop → stop.rename t.moves = stop) :
    t.Echoes (fun a b => b = f a) (x.exec w) (y.exec w') := by
  unfold Work.WP at hx hy
  generalize x.exec w = first at hx ⊢
  generalize y.exec w' = second at hy ⊢
  obtain ⟨stop | a, w₁⟩ := first
  · obtain ⟨failing | answer, h₁⟩ := hx
    · exact .failed failing
    · rw [answer] at hy
      obtain ⟨stop' | b, w₁'⟩ := second
      · rcases hy.1 with failing | error
        · exact absurd t.calm failing.1
        · cases error
          have echoed : t.Echoes (fun a b => b = f a) (.error stop, w₁) (.error (stop.rename t.moves), w₁') :=
            .stopped ⟨v, v', h₁, hy.2, same⟩
          rwa [stops stop answer] at echoed
      · cases hy.1
  · obtain ⟨answer, h₁⟩ := hx
    rw [answer] at hy
    obtain ⟨stop' | b, w₁'⟩ := second
    · rcases hy.1 with failing | error
      · exact absurd t.calm failing.1
      · cases error
    · exact .done (Except.ok.inj hy.1).symm ⟨v, v', h₁, hy.2, same⟩

variable {user : User} (theirs : user.id = t.user)

include theirs in
theorem echoes_place (slot : Slot) (instant : Instant) (meets : t.Meets w w') :
    t.Echoes (fun p p' => p' = p.rename t.moves) ((Work.place slot user t.goal instant).exec w)
      ((Work.place (slot.rename t.moves) user t.goal instant).exec w') := by
  obtain ⟨v, v', h, h', same⟩ := meets
  have second := @Work.place_answers _ w' user t.goal _ _ _ (slot.rename t.moves) instant h'
  rw [show v'.store.place user t.goal instant (slot.rename t.moves).day = _ from
    t.place instant slot.day theirs same] at second
  exact .of_answers same (Work.place_answers h) second fun _ h => Stop.rename_of_ids (MemoryStore.ids_of_place h)

theorem echoes_takeDay (user goal : Id) (p : Placement) (meets : t.Meets w w') :
    t.Echoes (fun taken taken' => taken' = (taken.1.rename t.moves, taken.2))
      ((Work.takeDay user goal p).exec w) ((Work.takeDay user goal (p.rename t.moves)).exec w') := by
  have opens : t.Echoes (fun taken taken' => taken' = (taken.1.rename t.moves, taken.2))
      (Work.exec (do
        let d ← Work.ofZone (Day.create (← Work.freshId) user goal p.zone p.date)
        return (d, true)) w)
      (Work.exec (do
        let d ← Work.ofZone (Day.create (← Work.freshId) user goal p.zone p.date)
        return (d, true)) w') := by
    refine (echoes_freshId meets).bind fun id _ w₁ w₁' same meets₁ => ?_
    subst same
    rw [Day.create_rename]
    refine (echoes_ofZone meets₁).bind fun d _ w₂ w₂' same meets₂ => ?_
    exact same ▸ .pure rfl meets₂
  obtain ⟨lookup, zone, date⟩ := p
  cases lookup with
  | empty => exact opens
  | following => exact opens
  | current d => exact .pure rfl meets
  | preceding d? =>
    cases d? with
    | none => exact opens
    | some d => exact .pure rfl meets

theorem echoes_apply (s : Settings) (d : Day) (opened : Bool) (e : UsageEvent) (meets : t.Meets w w') :
    t.Echoes (fun r r' => r' = r.rename t.moves) ((Work.apply s d opened e).exec w)
      ((Work.apply s (d.rename t.moves) opened e).exec w') := by
  unfold Work.apply
  refine (echoes_inRange (s.decide?_rename d e) meets).bind fun decision _ w₁ w₁' same meets₁ => ?_
  subst same
  cases decision with
  | create =>
    refine (echoes_inRange (f := id) (congrFun Option.map_id _).symm meets₁).bind
      fun _ bounds w₂ w₂' same meets₂ => ?_
    subst same
    refine (echoes_freshId meets₂).bind fun id _ w₃ w₃' same meets₃ => ?_
    subst same
    refine (echoes_respecting (d.add_rename ⟨id, bounds.1, bounds.2, e.device, e.app⟩) meets₃).bind
      fun d' _ w₄ w₄' same meets₄ => ?_
    exact same ▸ .pure rfl meets₄
  | extend id =>
    refine (echoes_respecting (d.extend_rename t.injective id e.ends) meets₁).bind
      fun extended _ w₂ w₂' same meets₂ => ?_
    exact same ▸ .pure rfl meets₂
  | absorb a => exact .pure rfl meets₁

include theirs in
theorem echoes_recordEvent (s : Settings) (slot : Slot) (e : UsageEvent) (meets : t.Meets w w') :
    t.Echoes (fun recorded recorded' => recorded' = (recorded.1.rename t.moves, recorded.2.rename t.moves))
      ((Work.recordEvent s slot user t.goal e).exec w)
      ((Work.recordEvent s (slot.rename t.moves) user t.goal e).exec w') := by
  unfold Work.recordEvent
  refine (echoes_place theirs slot e.starts meets).bind fun p _ w₁ w₁' same meets₁ => ?_
  subst same
  refine (echoes_report _ _ meets₁).bind fun _ _ w₂ w₂' _ meets₂ => ?_
  refine (echoes_takeDay user.id t.goal p meets₂).bind fun (d, opened) _ w₃ w₃' same meets₃ => ?_
  subst same
  refine .ite_bind meets₃ (fun _ => echoes_report _ _ meets₃) fun w₄ w₄' meets₄ => ?_
  refine (echoes_apply s d opened (e.fit d) meets₄).bind fun r _ w₅ w₅' same meets₅ => ?_
  subst same
  rw [Merged.rename_outcome, Outcome.isPersisted_rename]
  exact .ite_bind meets₅ (fun _ => echoes_saveDay r.day meets₅) fun _ _ => .pure rfl

end Record

/-! ## Attaching a day -/

section Attach

theorem echoes_attachTo (isNew : Bool) (week : Week) (d : Day) (meets : t.Meets w w') :
    t.Echoes (fun _ _ => True)
      ((Work.attachTo isNew week d).exec w)
      ((Work.attachTo isNew (week.rename t.moves) (d.rename t.moves)).exec w') := by
  unfold Work.attachTo
  refine (echoes_respecting (week.attach_rename t.injective d) meets).bind
    fun (attached, week) _ w₁ w₁' same meets₁ => ?_
  subst same
  refine .ite (fun _ => ?_) fun _ => .done trivial meets₁
  refine (echoes_saveWeek week meets₁).bind fun _ _ w₂ w₂' _ meets₂ => ?_
  exact (echoes_report _ _ meets₂).bind fun _ _ _ _ _ => .done trivial

/-- A day of another user or goal could go to a week of theirs. -/
theorem echoes_attachDay {d : Day} (own : d.user = t.user ∧ d.goal = t.goal) (meets : t.Meets w w') :
    t.Echoes (fun _ _ => True) ((Work.attachDay d).exec w)
      ((Work.attachDay (d.rename t.moves)).exec w') := by
  unfold Work.attachDay
  rw [Day.rename_user, Day.rename_goal, own.1, own.2]
  refine (echoes_findWeek d.date.weekStart meets).bind fun week? _ w₁ w₁' same meets₁ => ?_
  subst same
  cases week? with
  | none =>
    refine (echoes_freshId meets₁).bind fun id _ w₂ w₂' same meets₂ => ?_
    subst same
    exact echoes_attachTo true (Week.create id t.user t.goal d.date.weekStart d.zone) d meets₂
  | some week => exact echoes_attachTo false week d meets₁

theorem echoes_attachPending (attaches cached : Bool) {d : Day} (own : d.user = t.user ∧ d.goal = t.goal)
    (meets : t.Meets w w') :
    t.Echoes (fun _ _ => True) ((Work.attachPending t.user t.goal attaches cached d).exec w)
      ((Work.attachPending t.user t.goal attaches cached (d.rename t.moves)).exec w') := by
  unfold Work.attachPending
  cases attaches with
  | false => exact .done trivial meets
  | true =>
    refine (echoes_attachDay own meets).bind fun _ _ w₁ w₁' _ meets₁ => ?_
    cases cached with
    | false => exact .done trivial meets₁
    | true =>
      refine (echoes_openSlot meets₁).bind fun slot _ w₂ w₂' same meets₂ => ?_
      subst same
      exact echoes_setSlot slot.markAttached meets₂

/-- What a merge does once the event is recorded echoes. -/
theorem echoes_settle (slot : Slot) (p : Placement) {r : Merged}
    (own : r.day.user = t.user ∧ r.day.goal = t.goal) (meets : t.Meets w w') :
    t.Echoes (fun r r' => r' = r.rename t.moves) ((Work.settle slot t.user t.goal p r).exec w)
      ((Work.settle (slot.rename t.moves) t.user t.goal (p.rename t.moves) (r.rename t.moves)).exec w') := by
  unfold Work.settle
  rw [Placement.rename_lookup, Lookup.isLate_rename, Lookup.attaches_rename, Merged.rename_day,
    Slot.replace_rename t.injective]
  refine .ite_bind meets (fun _ => echoes_setSlot _ meets) fun w₁ w₁' meets₁ => ?_
  refine (echoes_attachPending _ _ own meets₁).bind fun _ _ w₂ w₂' _ meets₂ => ?_
  exact (echoes_report _ _ meets₂).bind fun _ _ _ _ _ => .done rfl

end Attach

/-! ## The whole merge -/

section Merge

variable (s : Settings) {user : User} (theirs : user.id = t.user) (e : UsageEvent)
  (own : v.slot.Own t.user t.goal) (h : t.first.At t.user t.goal v w) (meets : t.Meets w w')

include theirs own h meets

/-- What a merge does once the slot is known echoes, if the cached day is one
of the user and goal. -/
theorem echoes_loaded :
    t.Echoes (fun r r' => r' = r.rename t.moves)
      (Work.exec (do
        let (p, r) ← Work.recordEvent s v.slot user t.goal e
        Work.settle v.slot t.user t.goal p r) w)
      (Work.exec (do
        let (p, r) ← Work.recordEvent s (v.slot.rename t.moves) user t.goal e
        Work.settle (v.slot.rename t.moves) t.user t.goal p r) w') := by
  have records : Work.WP (Work.recordEvent s v.slot user t.goal e) w
      (fun recorded _ => recorded.2.day.user = user.id ∧ recorded.2.day.goal = t.goal) fun _ _ => True :=
    Work.recordEvent_key (theirs ▸ h) (theirs ▸ own)
  refine (echoes_recordEvent theirs s v.slot e meets).bind_wp records
    fun (p, r) _ w₁ w₁' same key meets₁ => ?_
  subst same
  rw [theirs] at key
  exact echoes_settle v.slot p key meets₁

/-- A merge echoes if the cached day is one of the user and goal. -/
theorem echoes_merge :
    t.Echoes (fun r r' => r' = r.rename t.moves) ((Work.merge s user t.goal e).exec w)
      ((Work.merge s user t.goal e).exec w') := by
  rw [Work.merge_eq, theirs]
  refine (echoes_loadedSlot meets).bind_wp (Work.loadedSlot_ok h)
    fun slot _ w₁ w₁' same ⟨hslot, h₁⟩ meets₁ => ?_
  subst same hslot
  exact echoes_loaded s theirs e (Scope.load_own own) h₁ meets₁

end Merge
end Tandem
end UsageDiary
