import UsageDiary.Proofs.Day.Tidy
import UsageDiary.Proofs.Ids
import UsageDiary.Proofs.Merge.Acceptance

/-!
# What every stored day keeps

Every stored day was stored before a merge, or is the one that its event was
recorded in (`Moved.mem_days`). So what holds of a day without activities,
and is kept by each event that a day takes, holds of every stored day
(`World.Keeps.next`), as long as the user comes with regular zones and with
events outside leap seconds (`Act.Plain`). Main statement: the stored days
are tidy (`World.tidy_after`).
-/

namespace UsageDiary

section Stored

variable {s : Settings} {user : User} {goal : Id} {e : UsageEvent} {v v' : Scope} {p : Placement}
  {d : Day} {opened : Bool} {next : Nat} {r : Merged}

/-- The day that takes an event was stored before, or is without activities. -/
theorem Recorded.mem_or_nil (h : Recorded s user goal e v p d opened next r v')
    (coherent : v.slot.Coherent v.store user.id goal) : d ∈ v.store.days ∨ d.activities = [] := by
  cases opened with
  | false => exact .inl (MemoryStore.mem_of_findDay (h.holds_of_kept coherent))
  | true => exact .inr h.taken.nil_of_opened

/-- A stored day was stored before a merge, or is the one of its event. -/
theorem Moved.mem_days (h : Moved s user goal e v v') (hd : d ∈ v'.store.days) :
    d ∈ v.store.days ∨ ∃ p d₀ opened next r v₁,
      Recorded s user goal e (v.load user.id goal) p d₀ opened next r v₁ ∧ d = r.day := by
  cases h with
  | stayed days => exact .inl (days ▸ hd)
  | recorded recorded days =>
    rw [days, recorded.store] at hd
    split at hd
    · rcases MemoryStore.mem_saveDay hd with rfl | hd
      · exact .inr ⟨_, _, _, _, _, _, recorded, rfl⟩
      · exact .inl hd
    · exact .inl hd

end Stored

/-- A user comes with one of these zones, and with events that lie outside
leap seconds. -/
def Act.Plain (zones : List Zone) (user : Id) : Act → Prop
  | merge u _ e => u.id = user → u.zone ∈ zones ∧ e.starts.Ordinary ∧ e.ends.Ordinary
  | _ => True

/-- Acts in the users' zones, with events outside leap seconds, are plain
for every user. -/
theorem Act.Uses.plain {zones : Id → List Zone} {a : Act} (uses : a.Uses zones)
    (events : ∀ user goal e, a = .merge user goal e → e.starts.Ordinary ∧ e.ends.Ordinary) (user : Id) :
    a.Plain (zones user) user := by
  cases a with
  | merge u goal e => exact fun huser => ⟨huser ▸ uses, events u goal e rfl⟩
  | invalidate | restart | outages => trivial

namespace World

/-- The cached days are the stored ones, ids were given out once, the days
of a user have the bounds of their dates in these zones, and this holds of
each of them. -/
structure Keeps (zones : List Zone) (user : Id) (holds : Day → Prop) (w : World) : Prop where
  coherent : w.Coherent
  numbered : w.Numbered
  days : ∃ m, w.store = .memory m ∧ (∀ goal, m.DaysIn zones user goal) ∧
    ∀ d ∈ m.days, d.user = user → holds d

variable {s : Settings} {zones : List Zone} {user : Id} {holds : Day → Prop} {w : World}

theorem keeps_fresh (zones : List Zone) (user : Id) (holds : Day → Prop) (now : Instant) (nextId : Nat) :
    (fresh now nextId).Keeps zones user holds := by
  refine ⟨coherent_fresh now nextId, numbered_fresh now nextId, {}, rfl, fun goal date d hd => ?_,
    fun d hd => ?_⟩
  · cases hd
  · cases hd

theorem Keeps.mono {holds' : Day → Prop} (h : w.Keeps zones user holds) (weaker : ∀ d, holds d → holds' d) :
    w.Keeps zones user holds' := by
  obtain ⟨m, hm, days, all⟩ := h.days
  exact ⟨h.coherent, h.numbered, m, hm, days, fun d hd huser => weaker d (all d hd huser)⟩

/-- The day that an event of the user is recorded in takes it, and is as
every stored day is. -/
theorem Keeps.takes (h : w.Keeps zones user holds) (regular : ∀ z ∈ zones, z.Regular)
    (nil : ∀ d, d.activities = [] → holds d) {m : MemoryStore} (hm : w.store = .memory m) {u : User}
    {goal : Id} {e : UsageEvent} (plain : (Act.merge u goal e).Plain zones user) (huser : u.id = user)
    {p : Placement} {d : Day} {opened : Bool} {next : Nat} {r : Merged} {v' : Scope}
    (recorded : Recorded s u goal e (Scope.load ⟨m, w.cache.slot u.id goal, w.nextId⟩ u.id goal)
      p d opened next r v') :
    (d.user = user ∧ d.goal = goal ∧ d.zone ∈ zones) ∧ d.Takes e next ∧ holds d := by
  obtain ⟨coherent, numbered, stored⟩ := h
  obtain ⟨days, all⟩ := of_memory stored hm
  have loaded := Scope.load_coherent (v := ⟨m, w.cache.slot u.id goal, w.nextId⟩)
    (coherent.of_memory hm u.id goal)
  obtain ⟨keyUser, keyGoal⟩ := recorded.key loaded
  obtain ⟨hzone, starts, ends⟩ := plain huser
  have owned : m.DaysIn zones u.id goal := huser ▸ days goal
  obtain ⟨bounded, zoned⟩ := recorded.taken.bounded recorded.placed owned hzone loaded
  have covers := recorded.taken.covers recorded.placed regular owned hzone loaded
  have labelled := (recorded.numbered_taken loaded (numbered.of_memory hm)).labelled
  refine ⟨⟨keyUser.trans huser, keyGoal, zoned⟩, ⟨bounded, covers, labelled, starts, ends⟩, ?_⟩
  rcases recorded.mem_or_nil loaded with old | empty
  · exact all d old (keyUser.trans huser)
  · exact nil d empty

/-- What an event that a day takes keeps, an act keeps of every stored day. -/
theorem Keeps.next (h : w.Keeps zones user holds) (regular : ∀ z ∈ zones, z.Regular) {a : Act}
    (plain : a.Plain zones user) (nil : ∀ d, d.activities = [] → holds d)
    (step : ∀ {u goal e d opened next r next'}, a = .merge u goal e → u.id = user → d.user = user →
      d.goal = goal → d.Takes e next → Applied s d opened (e.fit d) next r next' → holds d →
      holds r.day) : (a.next s w).Keeps zones user holds := by
  have keeps := h
  obtain ⟨coherent, numbered, m, hm, days, all⟩ := h
  refine ⟨coherent.next a, numbered.next coherent a, ?_⟩
  cases a with
  | invalidate | restart | outages => exact ⟨m, hm, days, all⟩
  | merge u goal e =>
    have own := coherent.of_memory hm u.id goal
    obtain ⟨v', moved, at'⟩ := (Work.merge_ending s u goal e hm).moved
    refine ⟨v'.store, at'.store, fun goal' => ?_, fun d hd huser => ?_⟩
    · by_cases key : (user, goal') = (u.id, goal)
      · obtain ⟨rfl, rfl⟩ := Prod.mk.inj key
        exact moved.daysIn (days goal') (plain rfl).1 own
      · exact moved.daysIn_of_ne own key (days goal')
    · rcases moved.mem_days hd with hd | ⟨p, d₀, opened, next, r, v₁, recorded, rfl⟩
      · exact all d hd huser
      · have key := recorded.key (Scope.load_coherent own)
        have hu : u.id = user := by rw [← huser, recorded.applied.grows.user, key.1]
        obtain ⟨⟨dayUser, dayGoal, -⟩, takes, held⟩ := keeps.takes regular nil hm plain hu recorded
        exact step rfl hu dayUser dayGoal takes recorded.applied held

theorem Keeps.tidy (h : w.Keeps zones user (Day.Tidy s)) (timed : s.Timed)
    (regular : ∀ z ∈ zones, z.Regular) {a : Act} (plain : a.Plain zones user) :
    (a.next s w).Keeps zones user (Day.Tidy s) :=
  h.next regular plain (fun _ => .of_nil) fun _ _ _ _ takes applied tidy =>
    tidy.applied timed takes applied

/-- In every world that a run reaches, the stored days of a user are tidy. -/
theorem tidy_after (timed : s.Timed) (regular : ∀ z ∈ zones, z.Regular) (now : Instant) (nextId : Nat)
    {acts : List Act} (plain : ∀ a ∈ acts, a.Plain zones user) :
    ((fresh now nextId).after s acts).Keeps zones user (Day.Tidy s) :=
  after_induction (Keeps zones user (Day.Tidy s)) (keeps_fresh zones user _ now nextId)
    fun a ha _ h => h.tidy timed regular (plain a ha)

end World
end UsageDiary
