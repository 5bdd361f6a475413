import Mathlib.Data.List.MinMax
import UsageDiary.Proofs.Calendar.Order
import UsageDiary.Store.Memory

/-!
# What the memory store holds

The days and weeks of a store, seen through its queries. A day that is found
bears the user, goal and date asked for (`MemoryStore.key_of_findDay`), and
the last day of a user and goal is the stored one of the greatest date
(`MemoryStore.isLast_findLast`), which it is alone (`MemoryStore.IsLast.eq`).
Saving a day or a week changes the answer for its own key only.
-/

namespace UsageDiary.MemoryStore

variable {s : MemoryStore} {user goal : Id} {date : Date} {d : Day}

theorem key_of_findDay (h : s.findDay user goal date = some d) :
    d.user = user ∧ d.goal = goal ∧ d.date = date := by
  have := List.find?_some h
  simp only [isDay, Bool.and_eq_true, beq_iff_eq] at this
  exact ⟨this.1.1, this.1.2, this.2⟩

theorem key_of_findWeek {w : Week} (h : s.findWeek user goal date = some w) :
    w.user = user ∧ w.goal = goal ∧ w.weekStart = date := by
  have := List.find?_some h
  simp only [isWeek, Bool.and_eq_true, beq_iff_eq] at this
  exact ⟨this.1.1, this.1.2, this.2⟩

theorem mem_of_findDay (h : s.findDay user goal date = some d) : d ∈ s.days :=
  List.mem_of_find?_eq_some h

theorem mem_of_findWeek {w : Week} (h : s.findWeek user goal date = some w) : w ∈ s.weeks :=
  List.mem_of_find?_eq_some h

/-- By induction on the number of items: a pass takes the first one out. -/
theorem nodup_eraseDups {α : Type} [BEq α] [LawfulBEq α] (as : List α) : as.eraseDups.Nodup := by
  induction h : as.length using Nat.strongRecOn generalizing as with
  | ind n ih =>
  cases as with
  | nil => exact List.nodup_nil
  | cons a rest =>
    have shorter : (rest.filter fun b => !b == a).length < n :=
      Nat.lt_of_le_of_lt (List.length_filter_le _ _) (by simp [← h])
    rw [List.eraseDups_cons, List.nodup_cons, List.mem_eraseDups]
    exact ⟨by simp, ih _ shorter _ rfl⟩

/-! ## Saving -/

section Put

variable {α : Type} {same : α → Bool} {a : α} {as : List α}

theorem mem_put {b : α} (h : b ∈ put same a as) : b = a ∨ b ∈ as := by
  induction as with
  | nil => exact .inl (List.mem_singleton.mp h)
  | cons c rest ih =>
    simp only [put] at h
    split at h
    · rcases List.mem_cons.mp h with h | h
      · exact .inl h
      · exact .inr (List.mem_cons_of_mem c h)
    · rcases List.mem_cons.mp h with h | h
      · exact .inr (h ▸ List.mem_cons_self)
      · exact (ih h).imp id (List.mem_cons_of_mem c)

/-- Putting an item in its own place changes nothing. -/
theorem put_of_find? (h : as.find? same = some a) : put same a as = as := by
  induction as with
  | nil => cases h
  | cons b rest ih =>
    simp only [put]
    split
    · next hb =>
      rw [List.find?_cons_of_pos hb] at h
      cases h
      rfl
    · next hb =>
      rw [List.find?_cons_of_neg hb] at h
      rw [ih h]

/-- An item that has no place yet is put at the end. -/
theorem put_of_find?_eq_none (h : as.find? same = none) : put same a as = as ++ [a] := by
  induction as with
  | nil => rfl
  | cons b rest ih =>
    have hb : ¬ same b = true := List.find?_eq_none.mp h b List.mem_cons_self
    rw [List.find?_cons_of_neg hb] at h
    rw [put, if_neg hb, ih h, List.cons_append]

/-- An item put in the place of another changes nothing that they share. -/
theorem map_put_of_find? {β : Type} {f : α → β} {b : α} (h : as.find? same = some b) (hf : f a = f b) :
    (put same a as).map f = as.map f := by
  induction as with
  | nil => cases h
  | cons c rest ih =>
    simp only [put]
    split
    · next hc =>
      rw [List.find?_cons_of_pos hc] at h
      cases h
      rw [List.map_cons, List.map_cons, hf]
    · next hc =>
      rw [List.find?_cons_of_neg hc] at h
      rw [List.map_cons, List.map_cons, ih h]

theorem map_put {f : α → α} (hf : ∀ b, same (f b) = same b) (a : α) (as : List α) :
    (put same a as).map f = put same (f a) (as.map f) := by
  induction as with
  | nil => rfl
  | cons b rest ih =>
    simp only [put, List.map_cons, hf]
    split
    · rw [List.map_cons]
    · rw [List.map_cons, ih]

/-- An item of a kind is put in its place among the items of the kind. -/
theorem filter_put {kind : α → Bool} (ha : kind a = true) (all : ∀ b, same b = true → kind b = true)
    (as : List α) : (put same a as).filter kind = put same a (as.filter kind) := by
  induction as with
  | nil => simp [put, ha]
  | cons b rest ih =>
    by_cases hb : same b = true
    · rw [put, if_pos hb, List.filter_cons_of_pos ha, List.filter_cons_of_pos (all b hb), put, if_pos hb]
    · rw [put, if_neg hb]
      by_cases hk : kind b = true
      · rw [List.filter_cons_of_pos hk, List.filter_cons_of_pos hk, put, if_neg hb, ih]
      · rw [List.filter_cons_of_neg hk, List.filter_cons_of_neg hk, ih]

/-- An item of another kind changes nothing among the items of a kind. -/
theorem filter_put_of_disjoint {kind : α → Bool} (ha : kind a = false)
    (disjoint : ∀ b, same b = true → kind b = false) (as : List α) :
    (put same a as).filter kind = as.filter kind := by
  induction as with
  | nil => simp [put, ha]
  | cons b rest ih =>
    simp only [put]
    split
    · next hb => simp [ha, disjoint b hb]
    · simp only [List.filter_cons, ih]

end Put

theorem mem_saveDay {e : Day} (h : e ∈ (s.saveDay d).days) : e = d ∨ e ∈ s.days := mem_put h

theorem mem_saveWeek {w x : Week} (h : x ∈ (s.saveWeek w).weeks) : x = w ∨ x ∈ s.weeks := mem_put h

/-- Saving a day as it is stored changes nothing. -/
theorem saveDay_of_findDay (h : s.findDay d.user d.goal d.date = some d) : s.saveDay d = s := by
  unfold saveDay
  rw [put_of_find? h]

@[simp] theorem findWeek_saveWeek (s : MemoryStore) (w : Week) :
    (s.saveWeek w).findWeek w.user w.goal w.weekStart = some w :=
  find?_put (by simp [isWeek]) s.weeks

theorem findWeek_saveWeek_of_ne (s : MemoryStore) (w : Week) {user goal : Id} {date : Date}
    (h : ¬ (w.user = user ∧ w.goal = goal ∧ w.weekStart = date)) :
    (s.saveWeek w).findWeek user goal date = s.findWeek user goal date := by
  refine find?_put_of_disjoint ?_ ?_ s.weeks
  · simp only [isWeek, Bool.and_eq_false_iff, beq_eq_false_iff_ne]
    grind
  · intro b hb
    simp only [isWeek, Bool.and_eq_true, beq_iff_eq] at hb
    simp only [isWeek, Bool.and_eq_false_iff, beq_eq_false_iff_ne]
    grind

theorem findWeek_congr {s' : MemoryStore} (h : s'.weeks = s.weeks) (user goal : Id) (start : Date) :
    s'.findWeek user goal start = s.findWeek user goal start := by
  unfold findWeek
  rw [h]

/-! ## The last day -/

/-- The last day of a user and goal: a stored day that none of a later date
is stored beside, or none where no day is stored. -/
def IsLast (s : MemoryStore) (user goal : Id) : Option Day → Prop
  | none => ∀ date, s.findDay user goal date = none
  | some d => s.findDay user goal d.date = some d ∧
      ∀ {date : Date} {e : Day}, s.findDay user goal date = some e → date ≤ d.date

/-- There is one last day. -/
theorem IsLast.eq {a b : Option Day} (ha : s.IsLast user goal a) (hb : s.IsLast user goal b) :
    a = b := by
  match a, b, ha, hb with
  | none, none, _, _ => rfl
  | none, some e, ha, hb => exact absurd (ha e.date) (by rw [hb.1]; exact Option.some_ne_none e)
  | some d, none, ha, hb => exact absurd (hb d.date) (by rw [ha.1]; exact Option.some_ne_none d)
  | some d, some e, ha, hb =>
    have hdate : d.date = e.date := le_antisymm (hb.2 ha.1) (ha.2 hb.1)
    rw [← ha.1, ← hb.1, hdate]

theorem findDay_eq_find?_daysOf (s : MemoryStore) (user goal : Id) (date : Date) :
    s.findDay user goal date = (s.daysOf user goal).find? (·.date == date) := by
  simp only [findDay, daysOf, List.find?_filter, Bool.decide_and, Bool.decide_eq_true]
  rfl

/-- The last day is the first one of the greatest date. -/
theorem findLast_eq_argmax (s : MemoryStore) (user goal : Id) :
    s.findLast user goal = (s.daysOf user goal).argmax Day.date := by
  have step : later = List.argAux fun d e : Day => e.date < d.date := by
    funext best? d
    cases best? <;> rfl
  rw [findLast, step]
  rfl

/-- The first item of the greatest key is the first one of its key. -/
theorem find?_of_argmax {α β : Type} [LinearOrder β] [dec : DecidableLT β] {key : α → β} {as : List α}
    {a : α} (h : as.argmax key = some a) {p : α → Bool} (hp : ∀ b, p b = true ↔ key b = key a) :
    as.find? p = some a := by
  obtain rfl : dec = LinearOrder.toDecidableLT := Subsingleton.elim ..
  induction as with
  | nil => cases h
  | cons b rest ih =>
    rw [List.argmax_cons] at h
    cases found : rest.argmax key with
    | none =>
      rw [found] at h
      cases h
      exact List.find?_cons_of_pos ((hp _).mpr rfl)
    | some c =>
      simp only [found] at h
      split at h
      · next lt =>
        cases h
        rw [List.find?_cons_of_neg fun hb => ne_of_lt lt ((hp b).mp hb), ih found]
      · cases h
        exact List.find?_cons_of_pos ((hp _).mpr rfl)

/-- The last day that is found is the last day. -/
theorem isLast_findLast (s : MemoryStore) (user goal : Id) :
    s.IsLast user goal (s.findLast user goal) := by
  rw [findLast_eq_argmax]
  cases h : (s.daysOf user goal).argmax Day.date with
  | none =>
    intro date
    rw [findDay_eq_find?_daysOf, List.argmax_eq_none.mp h]
    rfl
  | some d =>
    refine ⟨?_, fun {date e} he => ?_⟩
    · rw [findDay_eq_find?_daysOf]
      exact find?_of_argmax h fun e => beq_iff_eq
    · rw [findDay_eq_find?_daysOf] at he
      have hdate : e.date = date := by simpa using List.find?_some he
      exact hdate ▸ not_lt.mp (List.not_lt_of_mem_argmax (List.mem_of_find?_eq_some he) h)

end UsageDiary.MemoryStore
