import UsageDiary.Proofs.Merge.Tandem

/-!
# Two runs that skip different ids

Work on a user and goal is run in one world and, after ids were skipped, in
another one without outages (`Rerun`). Scopes that are the same up to the
ids that were skipped are the same to a merge (`Rerun.tandem`).
-/

namespace UsageDiary

/-- A run that starts in `first` and one that starts in `second`, where no
call fails. Since some id, `skipped` more ids were drawn for the second. -/
structure Rerun where
  first : World
  second : World
  user : Id
  goal : Id
  since : Nat
  skipped : Nat
  calm : second.outages = []

namespace Rerun

variable (t : Rerun)

/-- The ids of the first run in the second. -/
def moves : Id → Id := Id.shift t.since t.skipped

/-- The scope of the second run where the first has this one. -/
def scope (v : Scope) : Scope :=
  ⟨v.store.rename t.moves, v.slot.rename t.moves, v.nextId + t.skipped⟩

/-- The second run has the scope of the first up to the ids that were
skipped. -/
def Same (v v' : Scope) : Prop := v' = t.scope v ∧ t.since ≤ v.nextId

variable {t}

theorem moves_injective : Function.Injective t.moves := Id.shift_injective

/-- What changes a store alike before and after a renaming keeps scopes the
same. -/
theorem Same.store {v v' : Scope} (h : t.Same v v') {m : MemoryStore} {f : MemoryStore → MemoryStore}
    (renamed : f (v.store.rename t.moves) = m.rename t.moves) :
    t.Same { v with store := m } { v' with store := f v'.store } := by
  obtain ⟨rfl, le⟩ := h
  exact ⟨congrArg (fun m => (⟨m, v.slot.rename t.moves, v.nextId + t.skipped⟩ : Scope)) renamed, le⟩

variable (t)

def tandem : Tandem where
  first := t.first
  second := t.second
  user := t.user
  goal := t.goal
  moves := t.moves
  same := t.Same
  calm := t.calm
  injective := moves_injective
  slot := fun ⟨same, _⟩ => congrArg Scope.slot same
  fresh := fun ⟨same, le⟩ => by rw [same, moves, Id.shift_of_le le]; rfl
  findLast := fun ⟨same, _⟩ => by rw [same]; exact MemoryStore.findLast_rename ..
  findWeek _ := fun ⟨same, _⟩ => by rw [same]; exact MemoryStore.findWeek_rename ..
  place _ _ _ := fun ⟨same, _⟩ => by rw [same]; exact MemoryStore.place_rename ..
  draw := fun ⟨same, le⟩ => by
    refine ⟨?_, Nat.le_succ_of_le le⟩
    rw [same]
    exact congrArg (Scope.mk _ _) (Nat.add_right_comm ..)
  setSlot _ := fun ⟨same, le⟩ => ⟨by rw [same]; rfl, le⟩
  saveDay d := fun same => same.store (f := (·.saveDay _)) (MemoryStore.saveDay_rename _ d)
  saveWeek week := fun same => same.store (f := (·.saveWeek _)) (MemoryStore.saveWeek_rename _ week)

end Rerun
end UsageDiary
