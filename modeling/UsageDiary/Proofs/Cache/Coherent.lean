import UsageDiary.Proofs.Run
import UsageDiary.Zone.Fixed

/-!
# The cached day is the stored one

In every world that a run reaches, a slot that holds a day holds the day
that the store has of its date (`findDay_of_cached`). A merge keeps this
(`Moved.coherent`): it caches only what it saved, and a late event goes to
a day of another date than the cached one, which would have covered it or
is not free.
-/

namespace UsageDiary

variable {s : Settings} {user : User} {goal : Id} {e : UsageEvent} {v v' : Scope}

/-- Looking up the last day keeps the cached day the stored one. -/
theorem Scope.load_coherent {user goal : Id} (coherent : v.slot.Coherent v.store user goal) :
    (v.load user goal).slot.Coherent v.store user goal := by
  unfold load
  dsimp only
  split
  · exact coherent
  · intro c hc
    have last := MemoryStore.isLast_findLast v.store user goal
    rw [show v.store.findLast user goal = some c from hc] at last
    exact last.1

/-- A day that a late event goes to is of another date than the cached day. -/
theorem Recorded.date_ne {p : Placement} {c d : Day} {opened : Bool} {next : Nat} {r : Merged}
    (h : Recorded s user goal e v p d opened next r v')
    (coherent : v.slot.Coherent v.store user.id goal) (cached : v.slot.day = some c)
    (late : p.lookup.isLate = true) : c.date ≠ d.date := by
  obtain ⟨before, z, -, -, found, covers, -⟩ := h.sought cached late
  intro hdate
  rw [← hdate, coherent c cached] at found
  cases opened with
  | false =>
    -- The cached day would be the one found, which covers the instant before it.
    cases found
    exact absurd (Day.covers_def.mp (covers rfl)).1 (not_le_of_gt before)
  | true => cases found

theorem Moved.coherent (h : Moved s user goal e v v')
    (coherent : v.slot.Coherent v.store user.id goal) :
    v'.slot.Coherent v'.store user.id goal := by
  intro c hc
  cases h with
  | stayed days slot =>
    rw [MemoryStore.findDay_congr days]
    rcases slot with slot | slot
    · exact coherent c (slot ▸ hc)
    · exact Scope.load_coherent coherent c (slot ▸ hc)
  | recorded recorded days slot =>
    have loaded := Scope.load_coherent coherent
    rw [MemoryStore.findDay_congr days]
    rw [slot.1, recorded.slot] at hc
    split at hc
    · next late =>
      rw [recorded.findDay_of_ne loaded fun same => recorded.date_ne loaded hc late same.2.2]
      exact loaded c hc
    · cases hc
      rw [recorded.applied.grows.date]
      exact recorded.findDay_self loaded

/-- A merge leaves the days of other users and goals as they were. -/
theorem Moved.findDay_of_ne (h : Moved s user goal e v v')
    (coherent : v.slot.Coherent v.store user.id goal) {user' goal' : Id}
    (hne : (user', goal') ≠ (user.id, goal)) (date : Date) :
    v'.store.findDay user' goal' date = v.store.findDay user' goal' date := by
  cases h with
  | stayed days => exact MemoryStore.findDay_congr days ..
  | recorded recorded days =>
    rw [MemoryStore.findDay_congr days]
    refine recorded.findDay_of_ne (Scope.load_coherent coherent) fun same => hne ?_
    rw [same.1, same.2.1]

theorem Moved.coherent_of_ne (h : Moved s user goal e v v')
    (coherent : v.slot.Coherent v.store user.id goal) {user' goal' : Id}
    (hne : (user', goal') ≠ (user.id, goal)) {slot : Slot} (other : slot.Coherent v.store user' goal') :
    slot.Coherent v'.store user' goal' :=
  fun c hc => (h.findDay_of_ne coherent hne c.date).trans (other c hc)

/-- An empty slot holds no day but stored ones. -/
theorem Slot.coherent_empty (m : MemoryStore) (user goal : Id) : ({} : Slot).Coherent m user goal :=
  fun c hc => by cases hc

/-- Every slot that holds a day holds the stored one of its date. -/
def World.Coherent (w : World) : Prop :=
  ∃ m, w.store = .memory m ∧ ∀ user goal, (w.cache.slot user goal).Coherent m user goal

theorem World.Coherent.of_memory {w : World} {m : MemoryStore} (h : w.Coherent)
    (hm : w.store = .memory m) (user goal : Id) : (w.cache.slot user goal).Coherent m user goal :=
  World.of_memory h hm user goal

theorem World.coherent_fresh (now : Instant) (nextId : Nat) : (World.fresh now nextId).Coherent :=
  ⟨{}, rfl, Slot.coherent_empty {}⟩

/-- An act keeps the cached days the stored ones. -/
theorem World.Coherent.next {w : World} (h : w.Coherent) (a : Act) : (a.next s w).Coherent :=
  Keyed.next h a (fun _ moved coherent => moved.coherent coherent)
    (fun moved coherent hne other => moved.coherent_of_ne coherent hne other)
    fun _ => Slot.coherent_empty _ _ _

theorem World.coherent_after (now : Instant) (nextId : Nat) (acts : List Act) :
    ((fresh now nextId).after s acts).Coherent :=
  after_induction World.Coherent (coherent_fresh now nextId) fun a _ _ h => h.next a

/-- In every world that a run reaches, the store has exactly the cached day
for its user, goal and date. -/
theorem findDay_of_cached (s : Settings) (acts : List Act) (now : Instant) (nextId : Nat)
    {user goal : Id} {d : Day}
    (cached : (((World.fresh now nextId).after s acts).cache.slot user goal).day = some d) :
    (((World.fresh now nextId).after s acts).store.findDay user goal d.date).result =
      .ok (some d) := by
  obtain ⟨m, hm, coherent⟩ := World.coherent_after (s := s) now nextId acts
  rw [hm]
  exact congrArg Except.ok (coherent user goal d cached)

/-- A merge of one event, then a failed one in another zone. -/
def Sample.failing : World :=
  (World.fresh .epoch 0).after {} [.merge (Sample.user .utc) Sample.goal (Sample.event 600),
    .outages [⟨.saveDay, 0, 1, .database, []⟩],
    .merge (Sample.user .east14) Sample.goal (Sample.event 1500)]

theorem findDay_of_cached_of_failing : ∃ d, (Sample.failing.cache.slot ⟨1⟩ ⟨3⟩).day = some d ∧
    (Sample.failing.store.findDay ⟨1⟩ ⟨3⟩ d.date).result = .ok (some d) := by
  have cached : (Sample.failing.cache.slot ⟨1⟩ ⟨3⟩).day.isSome = true := by decide +kernel
  obtain ⟨d, hd⟩ := Option.isSome_iff_exists.mp cached
  exact ⟨d, hd, findDay_of_cached _ _ _ _ hd⟩

end UsageDiary
