import UsageDiary.Proofs.Keys.Share
import UsageDiary.Proofs.Merge.Tandem

/-!
# A merge keeps to its share

A merge for a user and goal depends on nothing but their share, the ids yet
to be drawn, the user's zone, the event and the settings: in two worlds that
keep the same of them up to a renaming of ids (`World.Matches`) it answers
the same and leaves the same, up to this renaming (`World.Matches.merge`).
What else the worlds keep does not matter, nor what else the user is
(`Work.merge_congr`).
-/

namespace UsageDiary

/-- A merge reads no more of the user than id and zone. -/
theorem Work.merge_congr {user user' : User} (id : user.id = user'.id) (zone : user.zone = user'.zone)
    (s : Settings) (goal : Id) (e : UsageEvent) : merge s user goal e = merge s user' goal e := by
  obtain ⟨_, _, _, _, _, _⟩ := user
  obtain ⟨_, _, _, _, _, _⟩ := user'
  cases id
  cases zone
  rfl

/-- Two scopes hold the same share of a user and goal up to a renaming,
which takes the ids yet to be drawn in the one to those in the other. -/
structure Scope.Matches (ρ : Id → Id) (user goal : Id) (v v' : Scope) : Prop where
  slot : v'.slot = v.slot.rename ρ
  stored : v'.store.only user goal = (v.store.only user goal).rename ρ
  next : ∀ k, ρ ⟨v.nextId + k⟩ = ⟨v'.nextId + k⟩

/-- Two worlds keep the same of a user and goal up to a renaming, which
takes the ids yet to be drawn in the one to those in the other. -/
structure World.Matches (ρ : Id → Id) (user goal : Id) (w w' : World) : Prop where
  share : w'.share user goal = (w.share user goal).map (·.rename ρ)
  next : ∀ k, ρ ⟨w.nextId + k⟩ = ⟨w'.nextId + k⟩

variable {ρ : Id → Id} {user goal : Id}

namespace Scope.Matches

variable {v v' : Scope} (h : v.Matches ρ user goal v')

include h

theorem saveDay (d : Day) : Matches ρ user goal { v with store := v.store.saveDay d }
    { v' with store := v'.store.saveDay (d.rename ρ) } := by
  refine { h with stored := ?_ }
  show (v'.store.saveDay (d.rename ρ)).only user goal = ((v.store.saveDay d).only user goal).rename ρ
  by_cases own : d.user = user ∧ d.goal = goal
  · have own' : (d.rename ρ).user = user ∧ (d.rename ρ).goal = goal := own
    rw [v.store.only_saveDay_self own, v'.store.only_saveDay_self own', h.stored, MemoryStore.saveDay_rename]
  · have other : ¬ ((d.rename ρ).user = user ∧ (d.rename ρ).goal = goal) := own
    rw [v.store.only_saveDay_of_ne own, v'.store.only_saveDay_of_ne other, h.stored]

theorem saveWeek (week : Week) : Matches ρ user goal { v with store := v.store.saveWeek week }
    { v' with store := v'.store.saveWeek (week.rename ρ) } := by
  refine { h with stored := ?_ }
  show (v'.store.saveWeek (week.rename ρ)).only user goal = ((v.store.saveWeek week).only user goal).rename ρ
  by_cases own : week.user = user ∧ week.goal = goal
  · have own' : (week.rename ρ).user = user ∧ (week.rename ρ).goal = goal := own
    rw [v.store.only_saveWeek_self own, v'.store.only_saveWeek_self own', h.stored,
      MemoryStore.saveWeek_rename]
  · have other : ¬ ((week.rename ρ).user = user ∧ (week.rename ρ).goal = goal) := own
    rw [v.store.only_saveWeek_of_ne own, v'.store.only_saveWeek_of_ne other, h.stored]

theorem findLast : v'.store.findLast user goal = (v.store.findLast user goal).map (·.rename ρ) := by
  rw [← MemoryStore.findLast_only, h.stored, MemoryStore.findLast_rename, MemoryStore.findLast_only]

theorem findWeek (start : Date) :
    v'.store.findWeek user goal start = (v.store.findWeek user goal start).map (·.rename ρ) := by
  rw [← MemoryStore.findWeek_only, h.stored, MemoryStore.findWeek_rename, MemoryStore.findWeek_only]

theorem place {u : User} (t : Instant) (cached : Option Day) (theirs : u.id = user) :
    v'.store.place u goal t (cached.map (·.rename ρ)) =
      (v.store.place u goal t cached).map (·.rename ρ) := by
  subst theirs
  rw [← MemoryStore.place_only, h.stored, MemoryStore.place_rename, MemoryStore.place_only]

/-- An id is drawn on both sides. -/
theorem draw : Matches ρ user goal { v with nextId := v.nextId + 1 } { v' with nextId := v'.nextId + 1 } := by
  refine { h with next := fun k => ?_ }
  have later := h.next (1 + k)
  rwa [← Nat.add_assoc, ← Nat.add_assoc] at later

end Scope.Matches

/-- Two worlds whose scopes hold the same share run in tandem. -/
def Tandem.ofShares (first second : World) (user goal : Id) (injective : Function.Injective ρ)
    (calm : second.outages = []) : Tandem where
  first := first
  second := second
  user := user
  goal := goal
  moves := ρ
  same := Scope.Matches ρ user goal
  calm := calm
  injective := injective
  slot := Scope.Matches.slot
  fresh h := (h.next 0).symm
  findLast := Scope.Matches.findLast
  findWeek start h := h.findWeek start
  place t cached theirs h := h.place t cached theirs
  draw := Scope.Matches.draw
  setSlot _ h := { h with slot := rfl }
  saveDay d h := h.saveDay d
  saveWeek week h := h.saveWeek week

namespace World

variable {s : Settings} {user : User} {e : UsageEvent} {w w' base base' : World} {v v' : Scope}

theorem At.matches_iff (h : base.At user.id goal v w) (h' : base'.At user.id goal v' w') :
    w.Matches ρ user.id goal w' ↔ v.Matches ρ user.id goal v' := by
  constructor
  · intro ⟨share, next⟩
    rw [h.share, h'.share] at share
    have same := Option.some.inj share
    rw [h.nextId, h'.nextId] at next
    exact ⟨congrArg Share.slot same, congrArg Share.stored same, next⟩
  · intro ⟨slot, stored, next⟩
    rw [← h.nextId, ← h'.nextId] at next
    refine ⟨?_, next⟩
    rw [h.share, h'.share, slot, stored]
    rfl

/-- Worlds that keep the same of a user and goal match, up to the ids that
the second drew further. -/
theorem Matches.of_share {share : Share} (h : w.share user.id goal = some share)
    (h' : w'.share user.id goal = some share) (drawn : Id.Drawn w.nextId share.ids) (le : w.nextId ≤ w'.nextId) :
    w.Matches (Id.shift w.nextId (w'.nextId - w.nextId)) user.id goal w' := by
  refine ⟨?_, fun k => ?_⟩
  · rw [h, h', Option.map_some, Share.rename_eq_self fun id hid => Id.shift_of_lt (drawn id hid)]
  · rw [Id.shift_of_le (Nat.le_add_right _ k)]
    exact congrArg Id.mk (by omega)

/-- Merges in worlds that keep the same of the user and goal answer the same
and leave the same, up to the renaming. -/
theorem Matches.merge (h : w.Matches ρ user.id goal w') (injective : Function.Injective ρ) {share : Share}
    (hshare : w.share user.id goal = some share) (own : share.slot.Own user.id goal)
    (calm : w.outages = []) (calm' : w'.outages = []) (s : Settings) (e : UsageEvent) :
    ((Work.merge s user goal e).exec w').1 = Answer.rename ρ ((Work.merge s user goal e).exec w).1 ∧
      ((Work.merge s user goal e).exec w).2.Matches ρ user.id goal ((Work.merge s user goal e).exec w').2 := by
  have hshare' := h.share
  rw [hshare] at hshare'
  obtain ⟨m, hm, rfl⟩ := memory_of_share hshare
  obtain ⟨m', hm', -⟩ := memory_of_share hshare'
  have first := at_self hm user.id goal
  have second := at_self hm' user.id goal
  let t := Tandem.ofShares w w' user.id goal injective calm'
  have meets : t.Meets w w' := ⟨_, _, first, second, (first.matches_iff second).mp h⟩
  have same {w₁ w₁' : World} (meets : t.Meets w₁ w₁') : w₁.Matches ρ user.id goal w₁' := by
    obtain ⟨v, v', h₁, h₁', same⟩ := meets
    exact (At.matches_iff h₁ h₁').mpr same
  have echoes : t.Echoes (fun r r' => r' = r.rename ρ) ((Work.merge s user goal e).exec w)
      ((Work.merge s user goal e).exec w') :=
    Tandem.echoes_merge (v := ⟨m, w.cache.slot user.id goal, w.nextId⟩) s rfl e own first meets
  generalize (Work.merge s user goal e).exec w = once at echoes ⊢
  generalize (Work.merge s user goal e).exec w' = again at echoes ⊢
  cases echoes with
  | failed failing => exact absurd calm failing.1
  | done answer meets => exact ⟨congrArg Except.ok answer, same meets⟩
  | stopped meets => exact ⟨rfl, same meets⟩

end World
end UsageDiary
