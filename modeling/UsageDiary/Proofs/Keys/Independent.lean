import UsageDiary.Proofs.Keys.Interleaving

/-!
# Users and goals are independent

What a merge does for one user and goal has nothing to do with any other
(`keys_independent`): it leaves what is kept of others, depends on nothing
that is kept of them, and so merges for different users or goals may come in
any order.
-/

namespace UsageDiary

/-- Users and goals are independent of each other.

A merge leaves the slot, the days and the weeks of every other user and goal
as they were, whatever calls fail. Without outages it answers the same and
leaves the same slot, days and weeks of its own user and goal in all worlds
that keep the same of them, for any user of this id and zone, but for the ids
that it draws. And when two sequences of merges for different users and goals
take turns, every merge answers the same in whichever order they do, and the
run ends in the same slots, days and weeks, up to one renaming of the ids
drawn in it.

Slots are to hold days of their own user and goal, and ids in slots and store
to have been drawn; every world that a run reaches is in this order
(`World.housed_after`). -/
theorem keys_independent (s : Settings) :
    (∀ {w : World} {user : User} {goal : Id} (e : UsageEvent) {share : Share},
      w.share user.id goal = some share → share.slot.Own user.id goal →
      ∀ {user' goal' : Id}, (user', goal') ≠ (user.id, goal) →
        ((Work.merge s user goal e).exec w).2.share user' goal' = w.share user' goal') ∧
    (∀ {w w' : World} {user user' : User} {goal : Id} (e : UsageEvent) {share : Share},
      w.share user.id goal = some share → w'.share user.id goal = some share →
      share.slot.Own user.id goal → Id.Drawn w.nextId share.ids → w.nextId ≤ w'.nextId →
      w.outages = [] → w'.outages = [] → user.id = user'.id → user.zone = user'.zone →
      let drawn := Id.shift w.nextId (w'.nextId - w.nextId)
      ((Work.merge s user' goal e).exec w').1 = Answer.rename drawn ((Work.merge s user goal e).exec w).1 ∧
      ((Work.merge s user' goal e).exec w').2.share user.id goal =
        (((Work.merge s user goal e).exec w).2.share user.id goal).map (·.rename drawn)) ∧
    ∀ {w : World}, w.Ready → ∀ {xs ys : List Act}, (∀ a ∈ xs ++ ys, a.isMerge) →
      (∀ x ∈ xs, ∀ y ∈ ys, x.key? ≠ y.key?) →
      ∀ {turns turns' : List (Bool × Act)}, Interleaves xs ys turns → Interleaves xs ys turns' →
      ∃ σ : Equiv.Perm Id, (∀ id, id.value < w.nextId → σ id = id) ∧
        (∀ b, side b (w.sideAnswers s turns') = (side b (w.sideAnswers s turns)).map (Answer.rename σ)) ∧
        ∀ user goal, (w.after s (turns'.map (·.2))).share user goal =
          ((w.after s (turns.map (·.2))).share user goal).map (·.rename σ) := by
  refine ⟨fun e _ hshare own _ _ ne => Work.share_merge_of_ne s e hshare own ne, ?_,
    fun ready _ _ merges apart _ _ order order' => ready.interleavings s merges apart order order'⟩
  intro w w' user user' goal e share hshare hshare' own ids le calm calm' id zone
  obtain ⟨answer, after⟩ :=
    (World.Matches.of_share hshare hshare' ids le).merge Id.shift_injective hshare own calm calm' s e
  rw [← Work.merge_congr id zone]
  exact ⟨answer, after.share⟩

namespace Sample

/-- Another user with the same goal. -/
def neighbour : User := ⟨⟨4⟩, .utc, [], [], ⟨5⟩, none⟩

/-- Two users whose events are merged, one after the other. -/
def inTurn : List (Bool × Act) :=
  [(false, .merge (user .utc) goal (event 600)), (true, .merge neighbour goal (event 600))]

/-- The world in which the neighbour's event was merged. -/
def visited : World := ((Work.merge {} neighbour goal (event 600)).exec (World.fresh .epoch 0)).2

/-- A user and a neighbour get different ids when they come in another order,
and the same for the rest. -/
theorem neighbours_independent :
    visited.share ⟨1⟩ goal = (World.fresh .epoch 0).share ⟨1⟩ goal ∧
    ((Work.merge {} (user .utc) goal (event 600)).exec visited).1 = Answer.rename (Id.shift 0 visited.nextId)
      ((Work.merge {} (user .utc) goal (event 600)).exec (World.fresh .epoch 0)).1 ∧
    side false ((World.fresh .epoch 0).sideAnswers {} inTurn.reverse) ≠
      side false ((World.fresh .epoch 0).sideAnswers {} inTurn) ∧
    ∃ σ : Equiv.Perm Id, side false ((World.fresh .epoch 0).sideAnswers {} inTurn.reverse) =
      (side false ((World.fresh .epoch 0).sideAnswers {} inTurn)).map (Answer.rename σ) := by
  obtain ⟨others, own, orders⟩ := keys_independent {}
  have ready : (World.fresh .epoch 0).Ready := ⟨World.housed_after {} .epoch 0 [], rfl⟩
  have nobody : Slot.Own ⟨1⟩ goal {} := fun _ h => by cases h
  have nothing : Id.Drawn 0 (Share.ids ⟨{}, {}⟩) := fun _ h => by cases h
  have calm : visited.outages = [] := by decide +kernel
  have kept : visited.share ⟨1⟩ goal = some ⟨{}, {}⟩ := by
    show ((Work.merge {} neighbour goal (event 600)).exec (World.fresh .epoch 0)).2.share ⟨1⟩ goal = _
    rw [others (event 600) rfl (fun _ h => by cases h) (by decide)]
    rfl
  have alike := @own (World.fresh .epoch 0) visited (user .utc) (user .utc) goal (event 600) ⟨{}, {}⟩
    rfl kept nobody nothing (Nat.zero_le _) rfl calm rfl rfl
  rw [show (World.fresh .epoch 0).nextId = 0 from rfl, Nat.sub_zero] at alike
  have merges : ∀ a ∈ side false inTurn ++ side true inTurn, a.isMerge := by decide
  have apart : ∀ x ∈ side false inTurn, ∀ y ∈ side true inTurn, x.key? ≠ y.key? := by decide
  obtain ⟨σ, -, answers, -⟩ := @orders _ ready _ _ merges apart inTurn inTurn.reverse ⟨rfl, rfl⟩ ⟨rfl, rfl⟩
  exact ⟨kept, alike.1, by decide +kernel, σ, answers false⟩

end Sample
end UsageDiary
