import UsageDiary.Store.Calls

/-!
# Reasoning about work

`WP x w ok err`: work `x` in a world `w` ends in a value and a world of
which `ok` holds, or stops in a world of which `err` holds. A proof about
work follows its `do` block: `WP.bind` passes from a step to the work after
it, and each step has a lemma named for it (`findDay_ok` for `findDay`).

Work on one user and goal reads and changes their `Scope`: the store, which
is in memory here, their slot and the next id. The steps are described by
the scope before and after them (`World.At`). A store call that fails
leaves the scope as it was, and only fails if there were outages to begin
with (`World.Failing`).
-/

namespace UsageDiary

/-- What work on one user and goal reads and changes. -/
structure Scope where
  store : MemoryStore
  slot : Slot
  nextId : Nat

namespace World

/-- A world that work on a user and goal came to from `base`: the scope is
this one, every other slot is as it was, and there are outages only if
there were some. -/
structure At (base : World) (user goal : Id) (v : Scope) (w : World) : Prop where
  store : w.store = .memory v.store
  slot : w.cache.slot user goal = v.slot
  nextId : w.nextId = v.nextId
  others : ∀ {user' goal' : Id}, (user', goal') ≠ (user, goal) →
    w.cache.slot user' goal' = base.cache.slot user' goal'
  outages : base.outages = [] → w.outages = []

/-- Store calls may fail, and stop with an error of the store. -/
def Failing (base : World) (stop : Stop) : Prop :=
  base.outages ≠ [] ∧ ∃ e, stop = .failed (.storage e)

/-- What is said of the store that a world has in memory holds of the one
that it has. -/
theorem of_memory {w : World} {m : MemoryStore} {holds : MemoryStore → Prop}
    (h : ∃ m, w.store = .memory m ∧ holds m) (hm : w.store = .memory m) : holds m := by
  obtain ⟨m', hm', h⟩ := h
  cases hm.symm.trans hm'
  exact h

/-- The world that work starts in. -/
theorem at_self {w : World} {m : MemoryStore} (h : w.store = .memory m) (user goal : Id) :
    w.At user goal ⟨m, w.cache.slot user goal, w.nextId⟩ w :=
  ⟨h, rfl, rfl, fun _ => rfl, id⟩

variable {base w w' : World} {user goal : Id} {v : Scope}

/-- A world has one scope. -/
theorem At.eq {base' : World} {v' : Scope} (h : base.At user goal v w) (h' : base'.At user goal v' w) :
    v = v' := by
  obtain ⟨m, slot, next⟩ := v
  obtain ⟨m', slot', next'⟩ := v'
  cases h.store.symm.trans h'.store
  cases h.slot.symm.trans h'.slot
  cases h.nextId.symm.trans h'.nextId
  rfl

/-- Outages that are met, calls and reports leave the scope as it was. -/
theorem At.of_eq (h : base.At user goal v w) (store : w'.store = w.store)
    (cache : w'.cache = w.cache) (nextId : w'.nextId = w.nextId)
    (outages : w.outages = [] → w'.outages = []) : base.At user goal v w' where
  store := store.trans h.store
  slot := cache ▸ h.slot
  nextId := nextId.trans h.nextId
  others hne := cache ▸ h.others hne
  outages none := outages (h.outages none)

/-- Reports leave the scope as it was. -/
theorem At.logged (h : base.At user goal v w) (logged : ∃ log, w' = { w with log := log }) :
    base.At user goal v w' := by
  obtain ⟨log, rfl⟩ := logged
  exact h.of_eq rfl rfl rfl id

/-- What a call leaves that meets this outage or none: only a call that
fails is noted, and without outages none is met. -/
structure Meets (w : World) (met : Option Outage) (w' : World) : Prop where
  store : w'.store = w.store
  cache : w'.cache = w.cache
  nextId : w'.nextId = w.nextId
  none : w.outages = [] → met = none ∧ w'.outages = []
  calls : met = .none → w'.calls = w.calls

end World

theorem exists_of_isOk {ε α : Type} {x : Except ε α} (h : x.isOk = true) : ∃ a, x = .ok a := by
  cases x with
  | error => cases h
  | ok a => exact ⟨a, rfl⟩

theorem exists_of_bind {ε α β : Type} {x : Except ε α} {f : α → Except ε β} {b : β}
    (h : x >>= f = .ok b) : ∃ a, x = .ok a ∧ f a = .ok b := by
  cases x with
  | error => cases h
  | ok a => exact ⟨a, rfl, h⟩

theorem mem_toOption {ε α : Type} {x : Except ε α} {a : α} : a ∈ x.toOption ↔ x = .ok a := by
  cases x <;> simp [Except.toOption]

namespace Work

variable {α β : Type} {x : Work α} {f : α → Work β} {w : World}

/-- How work ends in a world: its value or why it stopped, and the world
that it leaves. -/
def exec (x : Work α) (w : World) : Except Stop α × World := x.run.run w

theorem exec_bind (x : Work α) (f : α → Work β) (w : World) :
    exec (x >>= f) w = match x.exec w with
      | (.ok a, w') => (f a).exec w'
      | (.error stop, w') => (.error stop, w') := by
  show (ExceptT.run (ExceptT.bind x f)) w = _
  unfold exec
  simp only [ExceptT.bind, ExceptT.run, ExceptT.mk, bind, StateT.bind, StateT.run]
  rcases x w with ⟨_ | _, w'⟩ <;> rfl

theorem exec_bind_of_ok {w' : World} {a : α} (h : x.exec w = (.ok a, w')) (f : α → Work β) :
    (x >>= f).exec w = (f a).exec w' := by
  rw [exec_bind, h]

/-- Work that stops at a step ends in no value. -/
theorem isOk_bind_of_stops (h : (x.exec w).1.isOk = false) (f : α → Work β) :
    ((x >>= f).exec w).1.isOk = false := by
  rw [exec_bind]
  rcases hx : x.exec w with ⟨_ | _, w'⟩ <;> rw [hx] at h
  · rfl
  · cases h

/-- Work in a world ends with `ok` of its value and the world it leaves, or
stops with `err` of the reason and the world. -/
def WP (x : Work α) (w : World) (ok : α → World → Prop) (err : Stop → World → Prop) : Prop :=
  match x.exec w with
  | (.ok a, w') => ok a w'
  | (.error stop, w') => err stop w'

namespace WP

variable {ok ok' : α → World → Prop} {err err' : Stop → World → Prop}
  {next : β → World → Prop}

theorem pure {a : α} (h : ok a w) : WP (pure a) w ok err := h

theorem mono (h : WP x w ok err) (hok : ∀ a w', ok a w' → ok' a w')
    (herr : ∀ stop w', err stop w' → err' stop w') : WP x w ok' err' := by
  unfold WP at h ⊢
  rcases he : x.exec w with ⟨_ | _, w'⟩ <;> rw [he] at h
  · exact herr _ _ h
  · exact hok _ _ h

/-- Work ends as it is said to, with what it is executed to. -/
theorem exec (h : WP x w ok err) : WP x w (fun a w' => x.exec w = (.ok a, w') ∧ ok a w')
    fun stop w' => x.exec w = (.error stop, w') ∧ err stop w' := by
  unfold WP at h ⊢
  rcases he : x.exec w with ⟨_ | _, w'⟩ <;> rw [he] at h <;> exact ⟨rfl, h⟩

/-- What is said of work in two ways holds together. -/
theorem and (h : WP x w ok err) (h' : WP x w ok' err') :
    WP x w (fun a w' => ok a w' ∧ ok' a w') fun stop w' => err stop w' ∧ err' stop w' := by
  unfold WP at h h' ⊢
  rcases he : x.exec w with ⟨_ | _, w'⟩ <;> rw [he] at h h' <;> exact ⟨h, h'⟩

theorem of_exec {w' : World} {a : α} (h : WP x w ok err) (exec : x.exec w = (.ok a, w')) : ok a w' := by
  unfold WP at h
  rw [exec] at h
  exact h

theorem of_exec_error {w' : World} {stop : Stop} (h : WP x w ok err) (exec : x.exec w = (.error stop, w')) :
    err stop w' := by
  unfold WP at h
  rw [exec] at h
  exact h

/-- Work that cannot stop ends in a value. -/
theorem exists_ok (h : WP x w ok err) (never : ∀ stop w', ¬ err stop w') :
    ∃ a w', x.exec w = (.ok a, w') ∧ ok a w' := by
  unfold WP at h
  rcases he : x.exec w with ⟨stop | a, w'⟩ <;> rw [he] at h
  · exact absurd h (never stop w')
  · exact ⟨a, w', rfl, h⟩

/-- Work goes on from what a step ends in, and stops where the step stops. -/
theorem bind (h : WP x w ok err) (hok : ∀ a w', ok a w' → WP (f a) w' next err')
    (herr : ∀ stop w', err stop w' → err' stop w') : WP (x >>= f) w next err' := by
  unfold WP at h
  rw [WP, exec_bind]
  rcases he : x.exec w with ⟨_ | _, w'⟩ <;> rw [he] at h
  · exact herr _ _ h
  · exact hok _ _ h

theorem ite {c : Prop} [Decidable c] {y : Work α} (hx : c → WP x w ok err)
    (hy : ¬ c → WP y w ok err) : WP (if c then x else y) w ok err := by
  by_cases h : c
  · rw [if_pos h]
    exact hx h
  · rw [if_neg h]
    exact hy h

/-- A step that is taken under a condition, and the work after it. -/
theorem ite_bind {c : Prop} [Decidable c] {x : Work Unit} {k : Unit → Work β} (mid : World → Prop)
    (hx : c → WP x w (fun _ w' => mid w') err) (hskip : ¬ c → mid w)
    (hok : ∀ w', mid w' → WP (k ()) w' next err') (herr : ∀ stop w', err stop w' → err' stop w') :
    WP (if c then x >>= k else k ()) w next err' := by
  refine WP.ite (fun h => ?_) fun h => ?_
  · exact (hx h).bind (fun _ => hok) herr
  · exact hok w (hskip h)

end WP

/-- Work ends one way or another. -/
theorem any (x : Work α) (w : World) : WP x w (fun _ _ => True) fun _ _ => True := by
  unfold WP
  split <;> trivial

/-! ## Steps that cannot fail -/

section Steps

variable {base : World} {user goal : Id} {v : Scope}

theorem report_ok (e : LogEvent) (h : base.At user goal v w) :
    WP (report e) w (fun _ w' => base.At user goal v w') fun _ _ => False :=
  h.of_eq rfl rfl rfl id

theorem record_ok (c : Call) (h : base.At user goal v w) :
    WP (record c) w (fun _ w' => base.At user goal v w') fun _ _ => False :=
  h.of_eq rfl rfl rfl id

theorem get_ok (h : base.At user goal v w) :
    WP get w (fun a w' => a.store = .memory v.store ∧ base.At user goal v w') fun _ _ => False :=
  ⟨h.store, h⟩

theorem freshId_ok (h : base.At user goal v w) :
    WP freshId w (fun id w' => id = ⟨v.nextId⟩ ∧ base.At user goal { v with nextId := v.nextId + 1 } w')
      fun _ _ => False :=
  ⟨congrArg Id.mk h.nextId, h.store, h.slot, congrArg (· + 1) h.nextId, h.others, h.outages⟩

theorem setSlot_ok (slot : Slot) (h : base.At user goal v w) :
    WP (setSlot user goal slot) w (fun _ w' => base.At user goal { v with slot := slot } w')
      fun _ _ => False :=
  ⟨h.store, Cache.slot_set .., h.nextId,
    fun hne => (Cache.slot_set_of_ne _ _ hne).trans (h.others hne), h.outages⟩

theorem openSlot_ok (h : base.At user goal v w) :
    WP (openSlot user goal) w (fun slot w' => slot = v.slot ∧ base.At user goal v w')
      fun _ _ => False :=
  ⟨h.slot, h.store, (Cache.slot_set ..).trans h.slot, h.nextId,
    fun hne => (Cache.slot_set_of_ne _ _ hne).trans (h.others hne), h.outages⟩

/-! ## Values that may be missing -/

theorem fail_ok (e : AnalysisError) (h : base.At user goal v w) :
    WP (fail e : Work α) w (fun _ _ => False)
      fun stop w' => stop = .failed e ∧ base.At user goal v w' :=
  ⟨rfl, h⟩

theorem inRange_ok (a? : Option α) (w : World) :
    WP (inRange a?) w (fun a w' => a? = some a ∧ w' = w)
      fun stop w' => (a? = none ∧ stop = .outOfRange) ∧ w' = w := by
  cases a? with
  | some a => exact ⟨rfl, rfl⟩
  | none => exact ⟨⟨rfl, rfl⟩, rfl⟩

/-- Work that gives the value of a result leaves the world as it was. Where
there is an error in its place, it stops with what that stands for. -/
theorem result_ok {ε : Type} (give : Except ε α → Work α) {stands : ε → AnalysisError}
    {left : World → Prop} (value : ∀ a, give (.ok a) = pure a)
    (stops : ∀ e, WP (give (.error e)) w (fun _ _ => False)
      fun stop w' => stop = .failed (stands e) ∧ left w') (r : Except ε α) :
    WP (give r) w (fun a w' => r = .ok a ∧ w' = w)
      fun stop w' => (∃ e, r = .error e ∧ stop = .failed (stands e)) ∧ left w' := by
  cases r with
  | ok a =>
    rw [value]
    exact WP.pure ⟨rfl, rfl⟩
  | error e =>
    exact (stops e).mono (fun _ _ => False.elim) fun stop w' ⟨why, h⟩ => ⟨⟨e, rfl, why⟩, h⟩

theorem ofZone_ok (r : Except ZoneError α) (w : World) :
    WP (ofZone r) w (fun a w' => r = .ok a ∧ w' = w)
      fun stop w' => (∃ e, r = .error e ∧ stop = .failed (.zone e)) ∧ w' = w := by
  refine result_ok ofZone (fun _ => rfl) (fun _ => ?_) r
  exact ⟨rfl, rfl⟩

/-- A violation is reported before work stops with it. -/
theorem respecting_ok (r : Except Violation α) (w : World) :
    WP (respecting r) w (fun a w' => r = .ok a ∧ w' = w)
      fun stop w' => (∃ e, r = .error e ∧ stop = .failed (.violation e)) ∧
        ∃ log, w' = { w with log := log } := by
  refine result_ok respecting (fun _ => rfl) (fun _ => ?_) r
  exact ⟨rfl, _, rfl⟩

/-! ## Store calls -/

theorem meetOutage_meets (call : CallKind) (w : World) :
    WP (meetOutage call) w (fun met w' => w.Meets met w') fun _ _ => False := by
  have meet (none : w.outages = []) : Outage.meet call w.outages = (.none, []) := by
    rw [none]; rfl
  have hmet : WP (modifyGet fun w : World =>
      ((Outage.meet call w.outages).1, { w with outages := (Outage.meet call w.outages).2 })) w
      (fun met w' => w.Meets met w') fun _ _ => False :=
    ⟨rfl, rfl, rfl, fun none => ⟨by rw [meet none], congrArg Prod.snd (meet none)⟩, fun _ => rfl⟩
  refine hmet.bind (fun met w₁ meets => ?_) fun _ _ => id
  refine WP.ite_bind (fun w' => w.Meets met w') (fun failed => ?_) (fun _ => meets)
    (fun _ => WP.pure) fun _ _ => id
  exact ⟨meets.store, meets.cache, meets.nextId, meets.none, fun none => by rw [none] at failed; cases failed⟩

/-- A call meets an outage only if there are some. -/
theorem meetOutage_ok (call : CallKind) (h : base.At user goal v w) :
    WP (meetOutage call) w
      (fun met w' => (base.outages = [] → met = none) ∧ base.At user goal v w')
      fun _ _ => False :=
  (meetOutage_meets call w).mono (fun _ _ meets => ⟨fun none => (meets.none (h.outages none)).1,
    h.of_eq meets.store meets.cache meets.nextId fun none => (meets.none none).2⟩) fun _ _ => id

/-- A store call does what it does without outages, or fails. -/
theorem guarded_ok {call : CallKind} {run : Work α} {ok : α → World → Prop}
    (h : base.At user goal v w)
    (hrun : ∀ w₁, base.At user goal v w₁ → WP run w₁ ok fun _ _ => False) :
    WP (guarded call run) w ok fun stop w' => base.Failing stop ∧ base.At user goal v w' := by
  refine (meetOutage_ok call h).bind (fun met w₁ ⟨hnone, h₁⟩ => ?_) fun _ _ => False.elim
  cases met with
  | some o =>
    have outages : base.outages ≠ [] := fun none => Option.some_ne_none o (hnone none)
    exact (fail_ok _ h₁).mono (fun _ _ => False.elim) fun stop w' ⟨hstop, h'⟩ =>
      ⟨⟨outages, _, hstop⟩, h'⟩
  | none => exact (hrun w₁ h₁).mono (fun _ _ => id) fun _ _ => False.elim

/-- The answer of a store in memory is its result. -/
theorem answer_ok (a : α) (h : base.At user goal v w) :
    WP (answer ⟨.ok a, []⟩) w (fun b w' => b = a ∧ base.At user goal v w') fun _ _ => False :=
  ⟨rfl, h⟩

/-- A query answers with what the store in memory holds. -/
theorem query_ok {call : CallKind} (query : Store → Store.Reply α) {note : α → Call} {a : α}
    (h : base.At user goal v w) (ha : query (.memory v.store) = ⟨.ok a, []⟩) :
    WP (guarded call do
        let found ← answer (query (← get).store)
        record (note found)
        return found) w
      (fun found w' => found = a ∧ base.At user goal v w')
      fun stop w' => base.Failing stop ∧ base.At user goal v w' := by
  refine guarded_ok h fun w₁ h₁ => ?_
  refine (get_ok h₁).bind (fun _ w₂ ⟨hstore, h₂⟩ => ?_) fun _ _ => id
  rw [hstore, ha]
  refine (answer_ok a h₂).bind (fun found w₃ ⟨hfound, h₃⟩ => ?_) fun _ _ => id
  exact (record_ok _ h₃).bind (fun _ w₄ h₄ => WP.pure ⟨hfound, h₄⟩) fun _ _ => id

theorem findLast_ok (user' goal' : Id) (h : base.At user goal v w) :
    WP (findLast user' goal') w
      (fun found w' => found = v.store.findLast user' goal' ∧ base.At user goal v w')
      fun stop w' => base.Failing stop ∧ base.At user goal v w' :=
  query_ok (·.findLast user' goal') h rfl

theorem findDay_ok (user' goal' : Id) (date : Date) (h : base.At user goal v w) :
    WP (findDay user' goal' date) w
      (fun found w' => found = v.store.findDay user' goal' date ∧ base.At user goal v w')
      fun stop w' => base.Failing stop ∧ base.At user goal v w' :=
  query_ok (·.findDay user' goal' date) h rfl

theorem findWeek_ok (user' goal' : Id) (weekStart : Date) (h : base.At user goal v w) :
    WP (findWeek user' goal' weekStart) w
      (fun found w' => found = v.store.findWeek user' goal' weekStart ∧ base.At user goal v w')
      fun stop w' => base.Failing stop ∧ base.At user goal v w' :=
  query_ok (·.findWeek user' goal' weekStart) h rfl

/-- A save puts the store it makes in the place of the one that was there. -/
theorem save_ok {call : CallKind} (save : Store → Store.Reply Store) {note : Call}
    {m : MemoryStore} (h : base.At user goal v w)
    (hm : save (.memory v.store) = ⟨.ok (.memory m), []⟩) :
    WP (guarded call do
        record note
        let store ← answer (save (← get).store)
        modify fun w => { w with store := store }) w
      (fun _ w' => base.At user goal { v with store := m } w')
      fun stop w' => base.Failing stop ∧ base.At user goal v w' := by
  refine guarded_ok h fun w₁ h₁ => ?_
  refine (record_ok _ h₁).bind (fun _ w₂ h₂ => ?_) fun _ _ => id
  refine (get_ok h₂).bind (fun _ w₃ ⟨hstore, h₃⟩ => ?_) fun _ _ => id
  rw [hstore, hm]
  refine (answer_ok _ h₃).bind (fun store w₄ ⟨hsaved, h₄⟩ => ?_) fun _ _ => id
  rw [hsaved]
  exact ⟨rfl, h₄.slot, h₄.nextId, h₄.others, h₄.outages⟩

theorem saveDay_ok (d : Day) (h : base.At user goal v w) :
    WP (saveDay d) w (fun _ w' => base.At user goal { v with store := v.store.saveDay d } w')
      fun stop w' => base.Failing stop ∧ base.At user goal v w' :=
  save_ok (·.saveDay d) h rfl

theorem saveWeek_ok (week : Week) (h : base.At user goal v w) :
    WP (saveWeek week) w
      (fun _ w' => base.At user goal { v with store := v.store.saveWeek week } w')
      fun stop w' => base.Failing stop ∧ base.At user goal v w' :=
  save_ok (·.saveWeek week) h rfl

end Steps
end Work
end UsageDiary
