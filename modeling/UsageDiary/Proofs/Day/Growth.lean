import Mathlib.Data.List.Forall2
import UsageDiary.Day
import UsageDiary.Proofs.Calendar.Order

/-!
# How days grow

An activity grows when its end moves forward, and a day when its activities
grow and others come between them (`Day.Grows`). Adding an activity and
extending one are the two ways (`Day.grows_of_add`, `Day.grows_of_extend`).
-/

namespace UsageDiary

/-- The same activity later on: its end may have moved forward. -/
structure Activity.Grows (a a' : Activity) : Prop where
  id : a'.id = a.id
  starts : a'.starts = a.starts
  device : a'.device = a.device
  app : a'.app = a.app
  ends : a.ends ≤ a'.ends

namespace Activity

theorem Grows.refl (a : Activity) : a.Grows a := ⟨rfl, rfl, rfl, rfl, le_refl _⟩

theorem Grows.trans {a b c : Activity} (h : a.Grows b) (h' : b.Grows c) : a.Grows c where
  id := h'.id.trans h.id
  starts := h'.starts.trans h.starts
  device := h'.device.trans h.device
  app := h'.app.trans h.app
  ends := le_trans h.ends h'.ends

instance : Std.Refl Grows := ⟨Grows.refl⟩
instance : IsTrans Activity Grows := ⟨fun _ _ _ => Grows.trans⟩

theorem grows_extendTo (a : Activity) (ends : Instant) : a.Grows (a.extendTo ends) := by
  refine ⟨?_, ?_, ?_, ?_, ends_le_extendTo a ends⟩ <;> unfold extendTo <;> split <;> rfl

end Activity

/-- The same day later on: its activities may have grown, and new ones may
stand between them. -/
structure Day.Grows (d d' : Day) : Prop where
  id : d'.id = d.id
  user : d'.user = d.user
  goal : d'.goal = d.goal
  date : d'.date = d.date
  zone : d'.zone = d.zone
  starts : d'.starts = d.starts
  ends : d'.ends = d.ends
  activities : d.activities.SublistForall₂ Activity.Grows d'.activities

namespace Day

variable {d d' : Day}

theorem Grows.refl (d : Day) : d.Grows d :=
  ⟨rfl, rfl, rfl, rfl, rfl, rfl, rfl, Std.Refl.refl d.activities⟩

theorem Grows.trans {d'' : Day} (h : d.Grows d') (h' : d'.Grows d'') : d.Grows d'' where
  id := h'.id.trans h.id
  user := h'.user.trans h.user
  goal := h'.goal.trans h.goal
  date := h'.date.trans h.date
  zone := h'.zone.trans h.zone
  starts := h'.starts.trans h.starts
  ends := h'.ends.trans h.ends
  activities := IsTrans.trans _ _ _ h.activities h'.activities

theorem sublist_insert (a : Activity) (as : List Activity) : as.Sublist (insert a as) := by
  induction as with
  | nil => exact List.nil_sublist _
  | cons b rest ih =>
    simp only [insert]
    split
    · exact ih.cons_cons b
    · exact List.sublist_cons_self a _

theorem grows_updateFirst (id : Id) {f : Activity → Activity} (hf : ∀ a : Activity, a.Grows (f a))
    (as : List Activity) : as.SublistForall₂ Activity.Grows (updateFirst id f as) := by
  induction as with
  | nil => exact .nil
  | cons a rest ih =>
    simp only [updateFirst]
    split
    · exact .cons (hf a) (refl rest)
    · exact .cons (.refl a) ih

/-- Adding an activity leaves the day as it was for the rest. -/
theorem grows_of_add {a : Activity} (h : d.add a = .ok d') : d.Grows d' := by
  unfold add at h
  split at h
  · cases h
    exact ⟨rfl, rfl, rfl, rfl, rfl, rfl, rfl, (sublist_insert a d.activities).sublistForall₂⟩
  · cases h

/-- Extending an activity leaves the day as it was for the rest. -/
theorem grows_of_extend {id : Id} {ends : Instant} {a : Activity}
    (h : d.extend id ends = .ok (d', a)) : d.Grows d' := by
  unfold extend at h
  split at h
  · cases h
  · split at h
    · cases h
    · cases h
      exact ⟨rfl, rfl, rfl, rfl, rfl, rfl, rfl,
        grows_updateFirst id (fun a => a.grows_extendTo ends) d.activities⟩

/-- Every activity is there later on, and may have grown. -/
theorem Grows.exists_grown (h : d.Grows d') {a : Activity} (ha : a ∈ d.activities) :
    ∃ a' ∈ d'.activities, a.Grows a' := by
  have grown {as as' : List Activity} (h : as.SublistForall₂ Activity.Grows as') (ha : a ∈ as) :
      ∃ a' ∈ as', a.Grows a' := by
    induction h with
    | nil => cases ha
    | @cons b b' _ _ grows _ ih =>
      rcases List.mem_cons.mp ha with rfl | ha
      · exact ⟨b', List.mem_cons_self, grows⟩
      · obtain ⟨a', ha', grows⟩ := ih ha
        exact ⟨a', List.mem_cons_of_mem b' ha', grows⟩
    | cons_right _ ih =>
      obtain ⟨a', ha', grows⟩ := ih ha
      exact ⟨a', List.mem_cons_of_mem _ ha', grows⟩
  exact grown h.activities ha

end Day
end UsageDiary
