import Mathlib.Data.List.Nodup
import UsageDiary.Proofs.Day.Order
import UsageDiary.Proofs.Merge.Recording

/-!
# The ids of a day's activities

The activities of a day bear ids from the supply, each its own
(`Day.Labelled`). An event that is applied to the day keeps this
(`Day.Labelled.applied`), since it only creates an activity with the next id
or extends one. So an event that is persisted does change the day
(`Applied.day_ne`): the activity it extends is the only one of its id.
-/

namespace UsageDiary

variable {s : Settings} {d d' : Day} {opened : Bool} {e : UsageEvent} {next next' : Nat}
  {r : Merged}

/-- The activities of a day bear ids drawn before `next`, each its own. -/
structure Day.Labelled (next : Nat) (d : Day) : Prop where
  distinct : (d.activities.map (·.id)).Nodup
  drawn : ∀ a ∈ d.activities, a.id.value < next

namespace Day.Labelled

theorem mono (h : d.Labelled next) (hle : next ≤ next') : d.Labelled next' :=
  ⟨h.distinct, fun a ha => Nat.lt_of_lt_of_le (h.drawn a ha) hle⟩

theorem of_nil (h : d.activities = []) : d.Labelled next := by
  refine ⟨by rw [h]; exact List.nodup_nil, fun a ha => ?_⟩
  rw [h] at ha
  cases ha

/-- Two activities of one id are the same. -/
theorem eq_of_id (h : d.Labelled next) {a b : Activity} (ha : a ∈ d.activities)
    (hb : b ∈ d.activities) (hid : a.id = b.id) : a = b :=
  List.inj_on_of_nodup_map h.distinct ha hb hid

/-- A new activity takes the next id. -/
theorem append (h : d.Labelled next) {a : Activity} (ha : a.id = ⟨next⟩) :
    ({ d with activities := d.activities ++ [a] } : Day).Labelled (next + 1) := by
  refine ⟨?_, fun b hb => ?_⟩
  · rw [List.map_append, List.map_singleton, ← List.concat_eq_append, List.nodup_concat]
    refine ⟨fun hmem => ?_, h.distinct⟩
    obtain ⟨b, hb, hid⟩ := List.mem_map.mp hmem
    have := h.drawn b hb
    rw [hid, ha] at this
    exact Nat.lt_irrefl next this
  · rcases List.mem_append.mp hb with hb | hb
    · exact Nat.lt_succ_of_lt (h.drawn b hb)
    · rw [List.mem_singleton.mp hb, ha]
      exact Nat.lt_succ_self next

/-- Activities may stand in another order. -/
theorem perm (h : d.Labelled next) {as : List Activity} (perm : as.Perm d.activities) :
    ({ d with activities := as } : Day).Labelled next :=
  ⟨(perm.map (·.id)).nodup_iff.mpr h.distinct, fun a ha => h.drawn a (perm.mem_iff.mp ha)⟩

/-- Activities may change as long as they keep their ids. -/
theorem map (h : d.Labelled next) {f : Activity → Activity} (hf : ∀ a, (f a).id = a.id) :
    ({ d with activities := d.activities.map f } : Day).Labelled next := by
  refine ⟨?_, fun b hb => ?_⟩
  · have ids : (d.activities.map f).map (·.id) = d.activities.map (·.id) := by
      simp only [List.map_map, Function.comp_def, hf]
    exact ids ▸ h.distinct
  · obtain ⟨a, ha, rfl⟩ := List.mem_map.mp hb
    rw [hf]
    exact h.drawn a ha

theorem add (h : d.Labelled next) {a : Activity} (ha : a.id = ⟨next⟩) (added : d.add a = .ok d') :
    d'.Labelled (next + 1) := by
  have perm : (insert a d.activities).Perm (d.activities ++ [a]) :=
    (perm_insert a d.activities).trans (List.perm_append_singleton a d.activities).symm
  unfold Day.add at added
  split at added
  · cases added
    exact (h.append ha).perm perm
  · cases added

theorem extend (h : d.Labelled next) {id : Id} {ends : Instant} {a : Activity}
    (extended : d.extend id ends = .ok (d', a)) : d'.Labelled next := by
  unfold Day.extend at extended
  split at extended
  · cases extended
  · split at extended
    · cases extended
    · cases extended
      rw [updateFirst_eq_map h.distinct]
      refine h.map fun b => ?_
      split
      · exact (b.grows_extendTo ends).id
      · rfl

/-- An event keeps the activities of its day apart. -/
theorem applied (h : d.Labelled next) (applied : Applied s d opened e next r next') :
    r.day.Labelled next' := by
  cases applied with
  | create _ _ added => exact h.add rfl added
  | extend _ extended => exact h.extend extended
  | absorb => exact h

/-- Moving the end of the activities with an id is putting one longer
activity in the place of another. -/
theorem map_extendTo (h : d.Labelled next) {a : Activity} (ha : a ∈ d.activities) {ends : Instant}
    (grows : a.ends < ends) :
    d.activities.map (fun b => if b.id = a.id then b.extendTo ends else b) =
      d.activities.map fun b => if b.id = a.id then { a with ends := ends } else b := by
  have extended : a.extendTo ends = { a with ends := ends } := if_pos grows
  refine List.map_congr_left fun b hb => ?_
  split
  · next hid => rw [h.eq_of_id hb ha hid, extended]
  · rfl

end Day.Labelled

/-- Extending an activity puts the longer one in its place. -/
theorem Day.extend_eq (labelled : d.Labelled next) {a b : Activity} {ends : Instant}
    (ha : a ∈ d.activities) (grows : a.ends < ends) (h : d.extend a.id ends = .ok (d', b)) :
    b = { a with ends := ends } ∧ ends ≤ d.ends ∧
      d' = { d with activities := d.activities.map fun b =>
        if b.id = a.id then { a with ends := ends } else b } := by
  have extended : a.extendTo ends = { a with ends := ends } := if_pos grows
  unfold extend at h
  split at h
  · cases h
  next a' found =>
    have hid : a'.id = a.id := by simpa using List.find?_some found
    have ha' : a' = a := labelled.eq_of_id (List.mem_of_find?_eq_some found) ha hid
    split at h
    · cases h
    · next fits =>
      cases h
      refine ⟨by rw [ha', extended], le_of_not_gt fits, ?_⟩
      rw [updateFirst_eq_map labelled.distinct, labelled.map_extendTo ha grows]

/-- Extending an activity of a day leaves those before and after it as they
were. -/
theorem Day.extend_split (labelled : d.Labelled next) {a b : Activity} {ends : Instant}
    (ha : a ∈ d.activities) (grows : a.ends < ends) (h : d.extend a.id ends = .ok (d', b)) :
    ∃ before after, d.activities = before ++ a :: after ∧
      d' = { d with activities := before ++ { a with ends := ends } :: after } := by
  obtain ⟨before, after, split⟩ := List.append_of_mem ha
  obtain ⟨-, -, rfl⟩ := extend_eq labelled ha grows h
  have others : ∀ c ∈ before ++ after, c.id ≠ a.id := by
    have distinct := labelled.distinct
    rw [split, List.map_append, List.map_cons, List.nodup_middle, ← List.map_append] at distinct
    exact fun c hc same => (List.nodup_cons.mp distinct).1 (same ▸ List.mem_map_of_mem hc)
  refine ⟨before, after, split, ?_⟩
  have kept (part : List Activity) (hpart : ∀ c ∈ part, c ∈ before ++ after) :
      part.map (fun c => if c.id = a.id then { a with ends := ends } else c) = part :=
    (List.map_congr_left fun c hc => if_neg (others c (hpart c hc))).trans (List.map_id _)
  rw [split, List.map_append, List.map_cons, if_pos rfl,
    kept before fun c hc => List.mem_append_left _ hc, kept after fun c hc => List.mem_append_right _ hc]

/-! ## What persisting means -/

/-- A change that leaves the activities as they are leaves the one it is
made to. -/
theorem Day.eq_of_updateFirst {id : Id} {f : Activity → Activity} {as : List Activity} {a : Activity}
    (found : as.find? (·.id == id) = some a) (same : updateFirst id f as = as) : f a = a := by
  induction as with
  | nil => cases found
  | cons b rest ih =>
    simp only [updateFirst] at same
    by_cases hb : b.id = id
    · rw [if_pos hb] at same
      rw [List.find?_cons_of_pos (by simpa using hb)] at found
      cases found
      exact (List.cons.inj same).1
    · rw [if_neg hb] at same
      rw [List.find?_cons_of_neg (by simpa using hb)] at found
      exact ih found (List.cons.inj same).2

/-- An event that is persisted changes its day. -/
theorem Applied.day_ne (h : Applied s d opened e next r next') (labelled : d.Labelled next)
    (persisted : r.outcome.isPersisted = true) : r.day ≠ d := by
  cases h with
  | create _ _ added =>
    unfold Day.add at added
    split at added
    · cases added
      intro same
      have length := congrArg (·.activities.length) same
      simp at length
    · cases added
  | @extend id a d' decided extended =>
    obtain ⟨last, hlast, hid, longer⟩ := Settings.lt_ends_of_extend decided
    cases hid
    unfold Day.extend at extended
    split at extended
    · cases extended
    next a' found =>
      have ha' : a' = last := labelled.eq_of_id (List.mem_of_find?_eq_some found)
        (Day.mem_of_last? hlast) (by simpa using List.find?_some found)
      split at extended
      · cases extended
      · cases extended
        intro same
        have fixed := Day.eq_of_updateFirst found (congrArg (·.activities) same)
        rw [ha', Activity.extendTo, if_pos longer] at fixed
        exact absurd (congrArg (·.ends) fixed) (ne_of_gt longer)
  | absorb => cases persisted

end UsageDiary
