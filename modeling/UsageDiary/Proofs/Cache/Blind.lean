import UsageDiary.Proofs.Merge.Closed

/-!
# Work that does not look at the cache

In two worlds that have the same store, next id and outages (`World.Alike`),
work that takes no notice of anything else ends in the same value, or stops
for the same reason, and leaves the worlds alike (`Work.Agrees`,
`Work.Blind`). A merge is blind in the part that records its event
(`blind_recordEvent`), which reads nothing of the slot but its day
(`recordEvent_congr`).
-/

namespace UsageDiary

/-- Two worlds have the same store, next id and outages. -/
structure World.Alike (w w' : World) : Prop where
  store : w.store = w'.store
  nextId : w.nextId = w'.nextId
  outages : w.outages = w'.outages

namespace World.Alike

variable {w w' w'' : World}

theorem refl : w.Alike w := ⟨rfl, rfl, rfl⟩

theorem symm (h : w.Alike w') : w'.Alike w := ⟨h.store.symm, h.nextId.symm, h.outages.symm⟩

theorem trans (h : w.Alike w') (h' : w'.Alike w'') : w.Alike w'' :=
  ⟨h.store.trans h'.store, h.nextId.trans h'.nextId, h.outages.trans h'.outages⟩

end World.Alike

namespace Work

variable {α β : Type} {x y : Work α} {f g : α → Work β} {w w' : World}

/-- Work in one world and work in another end in the same value, or stop
for the same reason, in worlds that are alike. -/
def Agrees (x : Work α) (w : World) (y : Work α) (w' : World) : Prop :=
  (x.exec w).1 = (y.exec w').1 ∧ (x.exec w).2.Alike (y.exec w').2

theorem Agrees.bind (h : Agrees x w y w')
    (hok : ∀ a w₁ w₁', x.exec w = (.ok a, w₁) → y.exec w' = (.ok a, w₁') → w₁.Alike w₁' →
      Agrees (f a) w₁ (g a) w₁') : Agrees (x >>= f) w (y >>= g) w' := by
  obtain ⟨result, alike⟩ := h
  unfold Agrees
  rw [exec_bind, exec_bind]
  rcases hx : x.exec w with ⟨stop | a, w₁⟩ <;> rcases hy : y.exec w' with ⟨stop' | a', w₁'⟩ <;>
    rw [hx, hy] at result alike <;> cases result
  · exact ⟨rfl, alike⟩
  · exact hok a w₁ w₁' hx hy alike

/-- Work ends the same in worlds that are alike, and leaves them alike. -/
structure Blind (x : Work α) : Prop where
  same : ∀ {w w' : World}, w.Alike w' → Agrees x w x w'

/-- Recording an event is blind: it saves, but does not look at the slots. -/
theorem blind_saving : Saving Blind where
  pure _ := ⟨fun alike => ⟨rfl, alike⟩⟩
  throw _ := ⟨fun alike => ⟨rfl, alike⟩⟩
  bind hx hf := ⟨fun alike => (hx.same alike).bind fun a _ _ _ _ alike => (hf a).same alike⟩
  report _ := ⟨fun alike => ⟨rfl, alike.store, alike.nextId, alike.outages⟩⟩
  record _ := ⟨fun alike => ⟨rfl, alike.store, alike.nextId, alike.outages⟩⟩
  freshId := ⟨fun alike => ⟨congrArg (fun n : Nat => (.ok ⟨n⟩ : Except Stop Id)) alike.nextId, alike.store,
    congrArg (· + 1) alike.nextId, alike.outages⟩⟩
  outage call := ⟨fun alike =>
    have same := congrArg (Outage.meet call) alike.outages
    ⟨congrArg (Except.ok ∘ Prod.fst) same, alike.store, alike.nextId, congrArg Prod.snd same⟩⟩
  store {α f} hf := ⟨fun {w w'} alike => by
    change Agrees (f w.store) w (f w'.store) w'
    rw [← alike.store]
    exact (hf w.store).same alike⟩
  recordSave _ := ⟨fun alike => ⟨rfl, alike.store, alike.nextId, alike.outages⟩⟩
  setStore _ := ⟨fun alike => ⟨rfl, rfl, alike.nextId, alike.outages⟩⟩

theorem blind_recordEvent (s : Settings) (slot : Slot) (user : User) (goal : Id) (e : UsageEvent) :
    Blind (recordEvent s slot user goal e) :=
  blind_saving.recordEvent s slot user goal e

theorem recordEvent_congr {slot slot' : Slot} (h : slot.day = slot'.day) (s : Settings) (user : User)
    (goal : Id) (e : UsageEvent) : recordEvent s slot user goal e = recordEvent s slot' user goal e := by
  unfold recordEvent place
  rw [h]

end Work
end UsageDiary
