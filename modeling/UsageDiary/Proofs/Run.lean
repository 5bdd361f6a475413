import UsageDiary.Proofs.Merge.Effect

/-!
# Runs of a service

A service starts with nothing stored and nothing cached (`World.fresh`).
Then events are merged, users' slots are emptied, the service is started
again over its store, and store calls fail, in any order (`Act`). A user may
come with another zone to every merge. What an act keeps, a run keeps
(`World.after_induction`).
-/

namespace UsageDiary

/-- What may happen to a service. -/
inductive Act where
  | merge (user : User) (goal : Id) (e : UsageEvent)
  | invalidate (user : Id)
  | restart
  /-- From now on these outages meet the calls. -/
  | outages (outages : List Outage)

namespace Act

/-- The world after an act. -/
def next (s : Settings) (w : World) : Act → World
  | merge user goal e => ((Work.merge s user goal e).exec w).2
  | invalidate user => ((Work.invalidate user).exec w).2
  | restart => { w with cache := [] }
  | outages os => { w with outages := os }

/-- The user and goal that a merge is for. -/
def key? : Act → Option (Id × Id)
  | merge user goal _ => some (user.id, goal)
  | _ => none

/-- An event is merged. -/
def isMerge (a : Act) : Bool := a.key?.isSome

theorem eq_merge {a : Act} (h : a.isMerge) : ∃ user goal e, a = merge user goal e := by
  cases a with
  | merge user goal e => exact ⟨user, goal, e, rfl⟩
  | invalidate | restart | outages => cases h

/-- The act brings no outages. -/
def Calm : Act → Prop
  | outages _ => False
  | _ => True

end Act

namespace World

/-- A world with nothing stored and nothing cached. -/
def fresh (now : Instant) (nextId : Nat) : World := { store := .memory {}, now, nextId }

/-- The world after acts. -/
def after (w : World) (s : Settings) (acts : List Act) : World := acts.foldl (Act.next s) w

/-- What the merges among acts end in, one after the other. -/
def answers (w : World) (s : Settings) : List Act → List (Except Stop Merged)
  | [] => []
  | .merge user goal e :: rest =>
    ((Work.merge s user goal e).exec w).1 :: answers ((Act.merge user goal e).next s w) s rest
  | a :: rest => answers (a.next s w) s rest

variable {w : World} {s : Settings}

/-- What holds of a world and is kept by each act holds after all of them. -/
theorem after_induction (holds : World → Prop) {acts : List Act} (start : holds w)
    (step : ∀ a ∈ acts, ∀ w, holds w → holds (a.next s w)) : holds (w.after s acts) :=
  acts.foldlRecOn (Act.next s) start fun w hw a ha => step a ha w hw

end World

/-- Emptying the slots of a user leaves those of others as they were. -/
theorem Cache.slot_invalidate (c : Cache) (user user' goal : Id) :
    (c.invalidate user).2.slot user' goal = if user' = user then {} else c.slot user' goal := by
  unfold invalidate
  induction c with
  | nil => simp [slot]
  | cons entry rest ih =>
    obtain ⟨⟨u, g⟩, sl⟩ := entry
    simp only [List.map_cons, slot]
    by_cases key : (u, g) = (user', goal)
    · cases key
      simp
    · simp only [key, if_false]
      exact ih

namespace World

/-- For every user and goal, this holds of the store and their slot. -/
def Keyed (holds : MemoryStore → Id → Id → Slot → Prop) (w : World) : Prop :=
  ∃ m, w.store = .memory m ∧ ∀ user goal, holds m user goal (w.cache.slot user goal)

/-- What holds for every user and goal, a merge has to keep for its own and
for the others, and it has to hold of an empty slot. -/
theorem Keyed.next {s : Settings} {w : World} {holds : MemoryStore → Id → Id → Slot → Prop}
    (h : w.Keyed holds) (a : Act)
    (own : ∀ {user goal e v v'}, a = .merge user goal e → Moved s user goal e v v' →
      holds v.store user.id goal v.slot → holds v'.store user.id goal v'.slot)
    (others : ∀ {user goal e v v' user' goal' slot}, Moved s user goal e v v' →
      holds v.store user.id goal v.slot → (user', goal') ≠ (user.id, goal) →
      holds v.store user' goal' slot → holds v'.store user' goal' slot)
    (emptied : ∀ {m user goal slot}, holds m user goal slot → holds m user goal {}) :
    (a.next s w).Keyed holds := by
  obtain ⟨m, hm, all⟩ := h
  cases a with
  | merge user goal e =>
    obtain ⟨v', moved, at'⟩ := (Work.merge_ending s user goal e hm).moved
    refine ⟨v'.store, at'.store, fun user' goal' => ?_⟩
    by_cases key : (user', goal') = (user.id, goal)
    · cases key
      rw [Act.next, at'.slot]
      exact own rfl moved (all user.id goal)
    · rw [Act.next, at'.others key]
      exact others moved (all user.id goal) key (all user' goal')
  | invalidate user =>
    refine ⟨m, hm, fun user' goal' => ?_⟩
    change holds m user' goal' ((w.cache.invalidate user).2.slot user' goal')
    rw [Cache.slot_invalidate]
    split
    · exact emptied (all user' goal')
    · exact all user' goal'
  | restart => exact ⟨m, hm, fun user' goal' => emptied (all user' goal')⟩
  | outages os => exact ⟨m, hm, all⟩

end World

/-! ## Sample runs -/

namespace Sample

/-- A user who comes with a zone. -/
def user (zone : Zone) : User := ⟨⟨1⟩, zone, [], [], ⟨2⟩, none⟩

/-- The goal that sample events are merged under. -/
def goal : Id := ⟨3⟩

/-- The dates 2025-01-07 and 2025-01-08. -/
def tuesday : Date := (Date.ofDay? 20095).getD .epoch

def wednesday : Date := (Date.ofDay? 20096).getD tuesday

/-- An event from some minutes after the start of 2025-01-07 in universal
time, for two minutes. -/
def event (minutes : Int) : UsageEvent where
  starts := (Instant.ofParts? (1736208000 + minutes * 60) 0).getD .epoch
  ends := (Instant.ofParts? (1736208120 + minutes * 60) 0).getD .epoch
  device := none
  app := none
  url := none

end Sample

end UsageDiary
