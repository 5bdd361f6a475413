import UsageDiary.Proofs.Cache.Blind
import UsageDiary.Proofs.Week.Mirror

/-!
# Losing the cache is not seen

Without outages a service answers and stores the same whether or not slots
are emptied or it is started again over its store, at any points
(`cache_loss_unobservable`).

The last day that is looked up is the one that was cached, so the event is
recorded in the same way (`Work.blind_recordEvent`). The mark on the slot
may differ: a day that is looked up is marked. But then attaching it again
changes nothing, because without outages every stored day is entered in its
week (`MemoryStore.Entered`).
-/

namespace UsageDiary

/-- Every stored day is entered in its week. -/
def MemoryStore.Entered (m : MemoryStore) : Prop :=
  ∀ {user goal date d}, m.findDay user goal date = some d → m.entered? user goal date = some d.id

theorem MemoryStore.Entered.settled {m : MemoryStore} (h : m.Entered) {user goal : Id} {slot : Slot}
    (coherent : slot.Coherent m user goal) : slot.Settled m user goal :=
  fun c cached _ => h (coherent c cached)

section Merge

variable {s : Settings} {user : User} {goal : Id} {e : UsageEvent} {v v' v₁ v₁' : Scope}
  {p : Placement} {d : Day} {opened : Bool} {next : Nat} {r : Merged}

/-- A merge enters its day, and leaves the others entered. -/
theorem Recorded.entered (h : Recorded s user goal e v p d opened next r v')
    (finished : Finished (p.lookup.attaches v.slot) p.lookup.isLate r.day v' v₁)
    (coherent : v.slot.Coherent v.store user.id goal) (entered : v.store.Entered) :
    v₁.store.Entered := by
  intro user' goal' date d' stored
  rw [MemoryStore.findDay_congr finished.days] at stored
  rw [h.entered?_eq finished coherent (entered.settled coherent)]
  have date_eq := h.applied.grows.date
  split
  · next key =>
    obtain ⟨rfl, rfl, rfl⟩ := key
    rw [date_eq, h.findDay_self coherent] at stored
    cases stored
    rfl
  · next other =>
    rw [h.findDay_of_ne coherent fun same => other ⟨same.1, same.2.1, same.2.2.trans date_eq.symm⟩]
      at stored
    exact entered stored

/-- Attaching a day ends in one store, whether or not it is attached again. -/
theorem Finished.eq {attaches attaches' late : Bool} (h : Finished attaches late d v v₁)
    (h' : Finished attaches' late d v' v₁') (store : v.store = v'.store) (nextId : v.nextId = v'.nextId)
    (entered : attaches = false ∨ attaches' = false →
      v.store.entered? d.user d.goal d.date = some d.id) :
    v₁.store = v₁'.store ∧ v₁.nextId = v₁'.nextId := by
  cases h with
  | skipped skips =>
    obtain ⟨hstore, hnext⟩ := h'.eq_of_entered (store ▸ entered (.inl skips))
    exact ⟨store.trans hstore.symm, nextId.trans hnext.symm⟩
  | attached attaches attached =>
    cases h' with
    | skipped skips =>
      obtain ⟨hstore, hnext⟩ := attached.eq_of_entered (entered (.inr skips))
      exact ⟨hstore.trans store, hnext.trans nextId⟩
    | attached _ attached' =>
      rw [← store, ← nextId] at attached'
      exact attached.eq attached'

end Merge

/-! ## One merge without outages -/

theorem World.Alike.of_at {base base' w w' : World} {user goal : Id} {v v' : Scope}
    (h : base.At user goal v w) (h' : base'.At user goal v' w') (store : v.store = v'.store)
    (nextId : v.nextId = v'.nextId) (outages : base.outages = []) (outages' : base'.outages = []) :
    w.Alike w' where
  store := by rw [h.store, h'.store, store]
  nextId := by rw [h.nextId, h'.nextId, nextId]
  outages := by rw [h.outages outages, h'.outages outages']

/-- The last day of a user and goal was looked up in a store whose days are
all entered in their weeks. -/
structure Scope.Ready (zones : List Zone) (user goal : Id) (v : Scope) : Prop where
  days : v.store.DaysIn zones user goal
  last : v.store.IsLast user goal v.slot.day
  coherent : v.slot.Coherent v.store user goal
  entered : v.store.Entered

section Settle

variable {s : Settings} {user : User} {goal : Id} {e : UsageEvent} {v v' v₁ v₁' : Scope}
  {p : Placement} {d d' : Day} {opened opened' : Bool} {next next' : Nat} {r : Merged}
  {zones : List Zone} {base base' w w' : World}

/-- Settling a recorded day does not stop. -/
theorem Scope.Ready.settle (ready : v.Ready zones user.id goal) (zone : user.zone ∈ zones)
    (recorded : Recorded s user goal e v p d opened next r v₁)
    (h : base.At user.id goal { v₁ with slot := v.slot } w) (outages : base.outages = []) :
    ∃ v₂ w', (Work.settle v.slot user.id goal p r).exec w = (.ok r, w') ∧
      Finished (p.lookup.attaches v.slot) p.lookup.isLate r.day v₁ v₂ ∧
      base.At user.id goal v₂ w' := by
  obtain ⟨r', w', exec, rfl, v₂, finished, h'⟩ := (Work.settle_ok recorded h).exists_ok
    fun stop w' ⟨why, _⟩ => why.elim (fun failing => failing.1 outages)
      fun last => absurd (recorded.lt_last ready.days zone ready.coherent) (not_lt_of_ge last)
  exact ⟨v₂, w', exec, finished, h'⟩

/-- A recorded day that need not be attached is entered. -/
theorem Scope.Ready.entered_of_skips (ready : v.Ready zones user.id goal)
    (recorded : Recorded s user goal e v p d opened next r v₁)
    (skips : p.lookup.attaches v.slot = false) :
    v₁.store.entered? r.day.user r.day.goal r.day.date = some r.day.id := by
  have key := recorded.day_key ready.coherent.own
  rw [key.1, key.2]
  exact recorded.entered_of_skips (MemoryStore.Entered.settled ready.entered ready.coherent) skips

/-- A day that was recorded in two worlds is settled in both, and leaves
them alike. -/
theorem Scope.Ready.settle_alike (ready : v.Ready zones user.id goal)
    (ready' : v'.Ready zones user.id goal) (zone : user.zone ∈ zones)
    (recorded : Recorded s user goal e v p d opened next r v₁)
    (recorded' : Recorded s user goal e v' p d' opened' next' r v₁')
    (h : base.At user.id goal { v₁ with slot := v.slot } w)
    (h' : base'.At user.id goal { v₁' with slot := v'.slot } w') (alike : w.Alike w')
    (outages : base.outages = []) (outages' : base'.outages = []) :
    Work.Agrees (Work.settle v.slot user.id goal p r) w (Work.settle v'.slot user.id goal p r) w' := by
  obtain ⟨v₂, w₂, exec, finished, at₂⟩ := ready.settle zone recorded h outages
  obtain ⟨v₂', w₂', exec', finished', at₂'⟩ := ready'.settle zone recorded' h' outages'
  unfold Work.Agrees
  rw [exec, exec']
  have store : v₁.store = v₁'.store := Store.memory.inj (h.store.symm.trans (alike.store.trans h'.store))
  have nextId : v₁.nextId = v₁'.nextId := h.nextId.symm.trans (alike.nextId.trans h'.nextId)
  obtain ⟨store₂, nextId₂⟩ := finished.eq finished' store nextId fun skips => skips.elim
    (ready.entered_of_skips recorded) fun skips' => store ▸ ready'.entered_of_skips recorded' skips'
  exact ⟨rfl, .of_at at₂ at₂' store₂ nextId₂ outages outages'⟩

end Settle

namespace World

variable {s : Settings} {zones : Id → List Zone} {w w' : World}

/-- There are no outages, slots and days are in order, and every stored day
is entered in its week. -/
structure Intact (zones : Id → List Zone) (w : World) : Prop where
  orderly : w.Orderly zones
  outages : w.outages = []
  entered : ∃ m, w.store = .memory m ∧ m.Entered

theorem intact_fresh (zones : Id → List Zone) (now : Instant) (nextId : Nat) :
    (fresh now nextId).Intact zones :=
  ⟨orderly_fresh zones now nextId, rfl, {}, rfl, fun stored => by cases stored⟩

/-- The last day is looked up without a stop. -/
theorem Intact.load (h : w.Intact zones) (user goal : Id) : ∃ v w₁,
    (Work.loadedSlot user goal).exec w = (.ok v.slot, w₁) ∧ w.At user goal v w₁ ∧
    v.Ready (zones user) user goal ∧ w.store = .memory v.store ∧ v.nextId = w.nextId := by
  obtain ⟨m, hm, entered⟩ := h.entered
  obtain ⟨days, latest⟩ := h.orderly.of_memory hm user goal
  obtain ⟨w₁, exec, h₁⟩ := Work.loadedSlot_calm (at_self hm user goal) h.outages
  exact ⟨_, w₁, exec, h₁, ⟨days, Scope.load_isLast latest, Scope.load_coherent latest.coherent, entered⟩,
    hm, rfl⟩

/-- A merge does not see what is cached. -/
theorem Intact.merge_alike (h : w.Intact zones) (h' : w'.Intact zones) (alike : w.Alike w')
    {user : User} (zone : user.zone ∈ zones user.id) (goal : Id) (e : UsageEvent) :
    Work.Agrees (Work.merge s user goal e) w (Work.merge s user goal e) w' := by
  obtain ⟨v, w₁, load, at₁, ready, hm, nextId⟩ := h.load user.id goal
  obtain ⟨v', w₁', load', at₁', ready', hm', nextId'⟩ := h'.load user.id goal
  have store : v.store = v'.store := Store.memory.inj (hm.symm.trans (alike.store.trans hm'))
  have alike₁ : w₁.Alike w₁' := .of_at at₁ at₁' store
    (nextId.trans (alike.nextId.trans nextId'.symm)) h.outages h'.outages
  -- Whether the last day was cached or is looked up, it is the same.
  have day : v.slot.day = v'.slot.day := ready.last.eq (store ▸ ready'.last)
  unfold Work.Agrees
  rw [Work.merge_eq, Work.exec_bind_of_ok load, Work.exec_bind_of_ok load']
  have records := (Work.blind_recordEvent s v.slot user goal e).same alike₁
  refine Work.Agrees.bind (Work.recordEvent_congr day s user goal e ▸ records)
    fun (p, r) w₂ w₂' exec exec' alike₂ => ?_
  obtain ⟨d, opened, next, v₁, recorded, at₂⟩ := (Work.recordEvent_ok at₁).of_exec exec
  obtain ⟨d', opened', next', v₁', recorded', at₂'⟩ := (Work.recordEvent_ok at₁').of_exec exec'
  exact ready.settle_alike ready' zone recorded recorded' at₂ at₂' alike₂ h.outages h'.outages

end World

/-- A merge without outages leaves its day and all others entered. -/
theorem Ending.entered {s : Settings} {user : User} {goal : Id} {e : UsageEvent} {w w' : World}
    {v : Scope} {zones : List Zone} {result : Except Stop Merged}
    (h : Ending s user goal e w v result w') (outages : w.outages = [])
    (days : v.store.DaysIn zones user.id goal) (zone : user.zone ∈ zones)
    (coherent : v.slot.Coherent v.store user.id goal) (entered : v.store.Entered) :
    ∃ m, w'.store = .memory m ∧ m.Entered := by
  have loaded := Scope.load_coherent coherent
  cases h with
  | unloaded _ h => exact ⟨_, h.store, entered⟩
  | unrecorded _ h => exact ⟨_, h.store, entered⟩
  | unattached recorded why =>
    rcases why with failing | last
    · exact absurd outages failing.1
    · exact absurd (recorded.lt_last days zone loaded) (not_lt_of_ge last)
  | merged recorded finished h => exact ⟨_, h.store, recorded.entered finished loaded entered⟩

/-! ## Runs that lose the cache -/

namespace World

variable {s : Settings} {zones : Id → List Zone} {w w' : World}

theorem Intact.merge (h : w.Intact zones) (compatible : ∀ user, Compatible (zones user)) {user : User}
    (zone : user.zone ∈ zones user.id) (goal : Id) (e : UsageEvent) :
    ((Act.merge user goal e).next s w).Intact zones := by
  have uses : (Act.merge user goal e).Uses zones := zone
  have orderly' := h.orderly.next (s := s) compatible uses
  obtain ⟨m, hm, entered⟩ := h.entered
  obtain ⟨days, latest⟩ := h.orderly.of_memory hm user.id goal
  have ending := Work.merge_ending s user goal e hm
  obtain ⟨v', -, at'⟩ := ending.moved
  exact ⟨orderly', at'.outages h.outages,
    ending.entered h.outages days zone latest.coherent entered⟩

/-- Some slots are emptied, and nothing else is changed that matters. -/
structure Forgets (w w' : World) : Prop where
  alike : w.Alike w'
  slots : ∀ user goal, w'.cache.slot user goal = {} ∨ w'.cache.slot user goal = w.cache.slot user goal

theorem Intact.forgets (h : w.Intact zones) (forgets : w.Forgets w') : w'.Intact zones := by
  obtain ⟨m, hm, orderly⟩ := h.orderly
  refine ⟨⟨m, forgets.alike.store ▸ hm, fun user goal => ⟨(orderly user goal).1, ?_⟩⟩,
    forgets.alike.outages ▸ h.outages, forgets.alike.store ▸ h.entered⟩
  rcases forgets.slots user goal with empty | same
  · rw [empty]
    exact ⟨nofun, fun _ => rfl⟩
  · rw [same]
    exact (orderly user goal).2

end World

theorem Act.forgets {a : Act} (calm : a.Calm) (loses : a.isMerge = false) (s : Settings) (w : World) :
    w.Forgets (a.next s w) := by
  cases a with
  | merge => cases loses
  | invalidate user =>
    refine ⟨⟨rfl, rfl, rfl⟩, fun user' goal => ?_⟩
    change (w.cache.invalidate user).2.slot user' goal = {} ∨
      (w.cache.invalidate user).2.slot user' goal = _
    rw [Cache.slot_invalidate]
    split
    · exact .inl rfl
    · exact .inr rfl
  | restart => exact ⟨⟨rfl, rfl, rfl⟩, fun _ _ => .inl rfl⟩
  | outages => exact calm.elim

/-- By induction on the acts: merges keep the worlds alike, and emptying
slots in one of them leaves them so. -/
theorem World.Intact.merges_alike {s : Settings} {zones : Id → List Zone} {w w' : World}
    (h : w.Intact zones) (h' : w'.Intact zones) (alike : w.Alike w')
    (compatible : ∀ user, Compatible (zones user)) {acts : List Act} (calm : ∀ a ∈ acts, a.Calm)
    (uses : ∀ a ∈ acts.filter Act.isMerge, a.Uses zones) :
    w.answers s acts = w'.answers s (acts.filter Act.isMerge) ∧
      (w.after s acts).Alike (w'.after s (acts.filter Act.isMerge)) := by
  induction acts generalizing w w' with
  | nil => exact ⟨rfl, alike⟩
  | cons a rest ih =>
    have calm' : ∀ b ∈ rest, b.Calm := fun b hb => calm b (List.mem_cons_of_mem a hb)
    have forgets (loses : a.isMerge = false) : (a.next s w).Intact zones ∧ (a.next s w).Alike w' := by
      have forgets := Act.forgets (calm a List.mem_cons_self) loses s w
      exact ⟨h.forgets forgets, forgets.alike.symm.trans alike⟩
    cases a with
    | merge user goal e =>
      rw [List.filter_cons_of_pos rfl] at uses ⊢
      have zone : user.zone ∈ zones user.id := uses _ List.mem_cons_self
      obtain ⟨answer, alike'⟩ := h.merge_alike (s := s) h' alike zone goal e
      obtain ⟨answers, alike''⟩ := ih (h.merge compatible zone goal e) (h'.merge compatible zone goal e)
        alike' calm' fun b hb => uses b (List.mem_cons_of_mem _ hb)
      exact ⟨List.cons_eq_cons.mpr ⟨answer, answers⟩, alike''⟩
    | invalidate | restart =>
      obtain ⟨intact, alike'⟩ := forgets rfl
      exact ih intact h' alike' calm' uses
    | outages => exact (calm _ List.mem_cons_self).elim

/-- However users' zones change: of two runs of a service without outages
that merge the same events, with slots emptied and the service started again
at any points of either, every merge ends the same, and the days and weeks
that are stored in the end are the same. -/
theorem cache_loss_unobservable (zones : Id → List Zone) (compatible : ∀ user, Compatible (zones user))
    (s : Settings) (now : Instant) (nextId : Nat) {acts acts' : List Act}
    (uses : ∀ a ∈ acts, a.Uses zones) (calm : ∀ a ∈ acts, a.Calm) (calm' : ∀ a ∈ acts', a.Calm)
    (same : acts.filter Act.isMerge = acts'.filter Act.isMerge) :
    (World.fresh now nextId).answers s acts = (World.fresh now nextId).answers s acts' ∧
      ((World.fresh now nextId).after s acts).store = ((World.fresh now nextId).after s acts').store := by
  have intact := World.intact_fresh zones now nextId
  have uses' : ∀ a ∈ acts.filter Act.isMerge, a.Uses zones :=
    fun a ha => uses a (List.mem_of_mem_filter ha)
  obtain ⟨answers, alike⟩ := intact.merges_alike (s := s) intact .refl compatible calm uses'
  obtain ⟨answers', alike'⟩ := intact.merges_alike (s := s) intact .refl compatible calm' (same ▸ uses')
  exact ⟨by rw [answers, answers', same], by rw [alike.store, alike'.store, same]⟩

/-- A user moves, a late event comes after the move, and the cache is lost
before every event but the first. -/
theorem cache_loss_unobservable_of_move :
    let first := Act.merge (Sample.user .utc) Sample.goal (Sample.event 600)
    let moved := Act.merge (Sample.user .east14) Sample.goal (Sample.event 1500)
    let late := Act.merge (Sample.user .east14) Sample.goal (Sample.event 610)
    (World.fresh .epoch 0).answers {} [first, moved, late] =
        (World.fresh .epoch 0).answers {} [first, .invalidate ⟨1⟩, moved, .restart, late] ∧
      ((World.fresh .epoch 0).after {} [first, moved, late]).store =
        ((World.fresh .epoch 0).after {} [first, .invalidate ⟨1⟩, moved, .restart, late]).store :=
  cache_loss_unobservable (fun _ => [.utc, .east14]) (fun _ => compatible_utc_east14) {} .epoch 0
    (by simp [Act.Uses, Sample.user]) (by simp [Act.Calm]) (by simp [Act.Calm]) rfl

end UsageDiary
