import Mathlib.Data.List.Basic
import UsageDiary.Proofs.Merge.Closed

/-!
# What work leaves alone

Nothing sets the clock or the directory, takes back a message or brings new
kinds of outages (`World.Framed`, `Work.framed_merge`). Most work leaves the
store and the cache alone as well (`World.Still`): splitting an event,
matching its goals and notifying a conflict (`Work.still_split`,
`Work.still_matchingGoals`, `Work.still_notify`).
-/

namespace UsageDiary

namespace World

/-- The clock and the directory are as they were, the messages sent are
still there, and every outage is of a kind that was there before. -/
structure Framed (w w' : World) : Prop where
  now : w'.now = w.now
  directory : w'.directory = w.directory
  sent : w.sent <+: w'.sent
  outages : ∀ o' ∈ w'.outages, ∃ o ∈ w.outages, o'.call = o.call

/-- Besides, the store and the cache are as they were. -/
structure Still (w w' : World) : Prop extends Framed w w' where
  store : w'.store = w.store
  cache : w'.cache = w.cache
  nextId : w.nextId ≤ w'.nextId

theorem Framed.refl (w : World) : w.Framed w :=
  ⟨rfl, rfl, List.prefix_refl _, fun o ho => ⟨o, ho, rfl⟩⟩

theorem Framed.trans {w₁ w₂ w₃ : World} (h : w₁.Framed w₂) (h' : w₂.Framed w₃) : w₁.Framed w₃ := by
  refine ⟨h'.now.trans h.now, h'.directory.trans h.directory, h.sent.trans h'.sent, fun o₃ ho₃ => ?_⟩
  obtain ⟨o₂, ho₂, same⟩ := h'.outages o₃ ho₃
  obtain ⟨o₁, ho₁, same'⟩ := h.outages o₂ ho₂
  exact ⟨o₁, ho₁, same.trans same'⟩

theorem Framed.of_eq {w w' : World} (now : w'.now = w.now) (directory : w'.directory = w.directory)
    (sent : w'.sent = w.sent) (outages : w'.outages = w.outages) : w.Framed w' :=
  ⟨now, directory, sent ▸ List.prefix_refl _, fun o ho => ⟨o, outages ▸ ho, rfl⟩⟩

theorem Still.refl (w : World) : w.Still w := ⟨.refl w, rfl, rfl, Nat.le_refl _⟩

theorem Still.trans {w₁ w₂ w₃ : World} (h : w₁.Still w₂) (h' : w₂.Still w₃) : w₁.Still w₃ :=
  ⟨h.toFramed.trans h'.toFramed, h'.store.trans h.store, h'.cache.trans h.cache,
    Nat.le_trans h.nextId h'.nextId⟩

instance : Std.Refl Framed := ⟨Framed.refl⟩
instance : IsTrans World Framed := ⟨fun _ _ _ => Framed.trans⟩
instance : Std.Refl Still := ⟨Still.refl⟩
instance : IsTrans World Still := ⟨fun _ _ _ => Still.trans⟩

end World

/-- Meeting an outage leaves outages of the kinds that were there. -/
theorem Outage.mem_meet {call : CallKind} {os : List Outage} {o' : Outage}
    (h : o' ∈ (meet call os).2) : ∃ o ∈ os, o'.call = o.call := by
  induction os with
  | nil => cases h
  | cons o rest ih =>
    have later (h : o' ∈ (meet call rest).2) : ∃ p ∈ o :: rest, o'.call = p.call := by
      obtain ⟨p, hp, same⟩ := ih h
      exact ⟨p, List.mem_cons_of_mem o hp, same⟩
    have first (same : o'.call = o.call) : ∃ p ∈ o :: rest, o'.call = p.call :=
      ⟨o, List.mem_cons_self, same⟩
    simp only [meet] at h
    split at h
    · exact (List.mem_cons.mp h).elim (fun same => first (same ▸ rfl)) later
    · split at h
      · exact (List.mem_cons.mp h).elim (fun same => first (same ▸ rfl)) later
      · split at h
        · rcases List.mem_cons.mp h with h | h
          · exact first (h ▸ rfl)
          · exact ⟨o', List.mem_cons_of_mem o h, rfl⟩
        · exact (List.mem_cons.mp h).elim (fun same => first (same ▸ rfl)) later

/-- A call meets no outage if there is none of its kind. -/
theorem Outage.meet_eq_none {call : CallKind} {os : List Outage} (h : ∀ o ∈ os, o.call ≠ call) :
    (meet call os).1 = none := by
  induction os with
  | nil => rfl
  | cons o rest ih =>
    simp only [meet, if_pos (h o List.mem_cons_self)]
    exact ih fun p hp => h p (List.mem_cons_of_mem o hp)

namespace Work

variable {α β : Type} {x : Work α} {f : α → Work β} {rel rel' : World → World → Prop} {w : World}

/-- Work leads from every world to one that it is related to. -/
structure Within (rel : World → World → Prop) (x : Work α) : Prop where
  leads : ∀ w, rel w (x.exec w).2

theorem WP.within {ok : α → World → Prop} {err : Stop → World → Prop} (h : WP x w ok err)
    (hx : Within rel x) :
    WP x w (fun a w' => ok a w' ∧ rel w w') fun stop w' => err stop w' ∧ rel w w' := by
  have leads := hx.leads w
  unfold WP at h ⊢
  rcases he : x.exec w with ⟨_ | _, w'⟩ <;> rw [he] at h leads <;> exact ⟨h, leads⟩

namespace Within

theorem mono (h : Within rel x) (hrel : ∀ w w', rel w w' → rel' w w') : Within rel' x :=
  ⟨fun w => hrel _ _ (h.leads w)⟩

theorem ite {c : Prop} [Decidable c] {y : Work α} (hx : Within rel x) (hy : Within rel y) :
    Within rel (if c then x else y) := by
  split
  · exact hx
  · exact hy

theorem bind [IsTrans World rel] (hx : Within rel x) (hf : ∀ a, Within rel (f a)) :
    Within rel (x >>= f) := by
  refine ⟨fun w => ?_⟩
  have first := hx.leads w
  rw [exec_bind]
  rcases he : x.exec w with ⟨stop | a, w'⟩ <;> rw [he] at first
  · exact first
  · exact IsTrans.trans _ _ _ first ((hf a).leads w')

theorem pure [Std.Refl rel] (a : α) : Within rel (pure a : Work α) := ⟨Std.Refl.refl⟩

theorem get [Std.Refl rel] : Within rel (get : Work World) := ⟨Std.Refl.refl⟩

variable [Std.Refl rel] [IsTrans World rel] (log : ∀ w log, rel w { w with log := log })
  (calls : ∀ w calls, rel w { w with calls := calls })
  (nextId : ∀ w, rel w { w with nextId := w.nextId + 1 })
  (outages : ∀ w call, rel w { w with outages := (Outage.meet call w.outages).2 })
include log calls nextId outages

/-- Work leads where looking at the store and the directory leads, if a
report, a note, an id drawn and an outage met do. -/
theorem inquiring : Inquiring (Within rel) where
  pure := .pure
  throw _ := ⟨Std.Refl.refl⟩
  bind := .bind
  report _ := ⟨fun w => log w _⟩
  record _ := ⟨fun w => calls w _⟩
  freshId := ⟨nextId⟩
  outage call := ⟨fun w => outages w call⟩
  store hf := .bind .get fun _ => hf _
  directory hf := .bind .get fun _ => hf _

/-- Work leads where a merge leads, if setting the store and the cache do. -/
theorem merging (store : ∀ w store, rel w { w with store := store })
    (cache : ∀ w cache, rel w { w with cache := cache }) : Merging (Within rel) where
  toLooking := (inquiring log calls nextId outages).toLooking
  recordSave _ := ⟨fun w => calls w _⟩
  setStore s := ⟨fun w => store w s⟩
  openSlot _ _ := ⟨fun w => cache w _⟩
  setSlot _ _ _ := ⟨fun w => cache w _⟩

end Within

/-! ## Work that leaves the store and the cache alone -/

/-- Work leaves the store and the cache as they were. -/
abbrev IsStill (x : Work α) : Prop := Within World.Still x

theorem still_inquiring : Inquiring IsStill :=
  Within.inquiring (fun w _ => ⟨.of_eq rfl rfl rfl rfl, rfl, rfl, Nat.le_refl w.nextId⟩)
    (fun w _ => ⟨.of_eq rfl rfl rfl rfl, rfl, rfl, Nat.le_refl w.nextId⟩)
    (fun w => ⟨.of_eq rfl rfl rfl rfl, rfl, rfl, Nat.le_succ w.nextId⟩)
    fun w _ => ⟨⟨rfl, rfl, List.prefix_refl _, fun _ ho' => Outage.mem_meet ho'⟩, rfl, rfl, Nat.le_refl w.nextId⟩

theorem still_report (e : LogEvent) : IsStill (report e) := still_inquiring.report e

theorem still_meetOutage (call : CallKind) : IsStill (meetOutage call) := still_inquiring.meetOutage call

theorem still_split (zone : Zone) (e : UsageEvent) : IsStill (e.split zone) := still_inquiring.split zone e

theorem still_matchingGoals (user : User) (labels : List String) (t : Instant) :
    IsStill (matchingGoals user labels t) :=
  still_inquiring.matchingGoals user labels t

theorem still_correctUse (offset : Duration) (u : AppUse) : IsStill (Analyzer.correctUse offset u) :=
  still_inquiring.correctUse offset u

theorem still_notifying : Notifying IsStill where
  toInquiring := still_inquiring
  clock hf := .bind .get fun _ => hf _
  send _ := ⟨fun w => ⟨⟨rfl, rfl, List.prefix_append _ _, fun o ho => ⟨o, ho, rfl⟩⟩, rfl, rfl,
    Nat.le_refl w.nextId⟩⟩

theorem still_dispatch (call : CallKind) (d : Dispatch) : IsStill (dispatch call d) :=
  still_notifying.dispatch call d

theorem still_notify (user : User) (goal : Goal) (activity : Activity) (url : Option String) :
    IsStill (notify user goal activity url) :=
  still_notifying.notify user goal activity url

/-! ## Merges -/

/-- Work leaves the clock, the directory and the messages sent alone. -/
abbrev IsFramed (x : Work α) : Prop := Within World.Framed x

theorem IsStill.framed (h : IsStill x) : IsFramed x := h.mono fun _ _ => World.Still.toFramed

theorem framed_merge (s : Settings) (user : User) (goal : Id) (e : UsageEvent) :
    IsFramed (merge s user goal e) := by
  have framed : Merging IsFramed :=
    Within.merging (fun _ _ => .of_eq rfl rfl rfl rfl) (fun _ _ => .of_eq rfl rfl rfl rfl)
      (fun _ => .of_eq rfl rfl rfl rfl)
      (fun _ _ => ⟨rfl, rfl, List.prefix_refl _, fun _ ho' => Outage.mem_meet ho'⟩)
      (fun _ _ => .of_eq rfl rfl rfl rfl) fun _ _ => .of_eq rfl rfl rfl rfl
  exact framed.merge s user goal e

end Work
end UsageDiary
