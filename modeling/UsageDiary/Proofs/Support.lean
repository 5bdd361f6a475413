import UsageDiary.Proofs.Renaming

/-!
# The ids that bear on a renaming

The ids of days, activities and weeks in a day, a week, a slot, a store or
an answer. A renaming changes a thing only by what it does to these
(`Day.rename_congr` and its like), so it leaves what bears only ids it
leaves (`Day.rename_eq_self`), and one renaming after another is one
(`Day.rename_rename`).
-/

namespace UsageDiary

/-- What a merge ends in. -/
abbrev Answer := Except Stop Merged

section Definitions

def Day.ids (d : Day) : List Id := d.id :: d.activities.map (·.id)

def Week.ids (w : Week) : List Id := w.id :: w.days.map (·.2)

def Slot.ids (s : Slot) : List Id := s.day.elim [] Day.ids

def MemoryStore.ids (m : MemoryStore) : List Id := m.days.flatMap Day.ids ++ m.weeks.flatMap Week.ids

def Merged.ids (r : Merged) : List Id := r.outcome.activity.id :: r.day.ids

def Violation.ids : Violation → List Id
  | outsideDay _ _ _ day => [day]
  | missingActivity activity _ => [activity]
  | foreignDay day week => [day, week]
  | _ => []

def Stop.ids : Stop → List Id
  | failed (.violation v) => v.ids
  | _ => []

def Answer.ids : Answer → List Id
  | .ok r => r.ids
  | .error stop => stop.ids

def Answer.rename (ρ : Id → Id) : Answer → Answer
  | .ok r => .ok (r.rename ρ)
  | .error stop => .error (stop.rename ρ)

end Definitions

theorem Day.mem_ids {d : Day} {a : Activity} (h : a ∈ d.activities) : a.id ∈ d.ids :=
  List.mem_cons_of_mem _ (List.mem_map_of_mem h)

theorem Week.mem_ids {w : Week} {p : Date × Id} (h : p ∈ w.days) : p.2 ∈ w.ids :=
  List.mem_cons_of_mem _ (List.mem_map_of_mem h)

theorem MemoryStore.mem_ids {m : MemoryStore} {id : Id} :
    id ∈ m.ids ↔ (∃ d ∈ m.days, id ∈ d.ids) ∨ ∃ w ∈ m.weeks, id ∈ w.ids := by
  unfold ids
  rw [List.mem_append, List.mem_flatMap, List.mem_flatMap]

variable {ρ σ : Id → Id}

/-! ## Renamings that agree on the ids -/

theorem Activity.rename_congr {a : Activity} (h : ρ a.id = σ a.id) : a.rename ρ = a.rename σ := by
  unfold rename
  rw [h]

theorem Day.rename_congr {d : Day} (h : ∀ id ∈ d.ids, ρ id = σ id) : d.rename ρ = d.rename σ := by
  have activities : d.activities.map (·.rename ρ) = d.activities.map (·.rename σ) :=
    List.map_congr_left fun a ha =>
      Activity.rename_congr (h a.id (mem_ids ha))
  unfold rename
  rw [h d.id List.mem_cons_self, activities]

theorem Week.rename_congr {w : Week} (h : ∀ id ∈ w.ids, ρ id = σ id) : w.rename ρ = w.rename σ := by
  have days : (w.rename ρ).days = (w.rename σ).days :=
    List.map_congr_left fun p hp =>
      congrArg (Prod.mk p.1) (h p.2 (mem_ids hp))
  calc
    w.rename ρ = { w with id := ρ w.id, days := (w.rename ρ).days } := rfl
    _ = { w with id := σ w.id, days := (w.rename σ).days } := by rw [h w.id List.mem_cons_self, days]

theorem Slot.rename_congr {s : Slot} (h : ∀ id ∈ s.ids, ρ id = σ id) : s.rename ρ = s.rename σ := by
  obtain ⟨day, loaded, pending⟩ := s
  cases day with
  | none => rfl
  | some d => exact congrArg (fun d => (⟨some d, loaded, pending⟩ : Slot)) (Day.rename_congr h)

theorem MemoryStore.rename_congr {m : MemoryStore} (h : ∀ id ∈ m.ids, ρ id = σ id) :
    m.rename ρ = m.rename σ := by
  have days : m.days.map (·.rename ρ) = m.days.map (·.rename σ) := List.map_congr_left fun d hd =>
    Day.rename_congr fun id hid => h id (mem_ids.mpr (.inl ⟨d, hd, hid⟩))
  have weeks : m.weeks.map (·.rename ρ) = m.weeks.map (·.rename σ) := List.map_congr_left fun w hw =>
    Week.rename_congr fun id hid => h id (mem_ids.mpr (.inr ⟨w, hw, hid⟩))
  unfold rename
  rw [days, weeks]

theorem Merged.rename_congr {r : Merged} (h : ∀ id ∈ r.ids, ρ id = σ id) : r.rename ρ = r.rename σ := by
  obtain ⟨outcome, day⟩ := r
  have activity : ρ outcome.activity.id = σ outcome.activity.id := h _ List.mem_cons_self
  have same : outcome.rename ρ = outcome.rename σ := by
    cases outcome with
    | created a dayCreated => exact congrArg (Outcome.created · dayCreated) (Activity.rename_congr activity)
    | extended a => exact congrArg Outcome.extended (Activity.rename_congr activity)
    | absorbed a => exact congrArg Outcome.absorbed (Activity.rename_congr activity)
  unfold rename
  rw [same, Day.rename_congr fun id hid => h id (List.mem_cons_of_mem _ hid)]

theorem Violation.rename_congr {v : Violation} (h : ∀ id ∈ v.ids, ρ id = σ id) :
    v.rename ρ = v.rename σ := by
  cases v <;> simp_all [ids, rename]

theorem Stop.rename_congr {stop : Stop} (h : ∀ id ∈ stop.ids, ρ id = σ id) :
    stop.rename ρ = stop.rename σ := by
  cases stop with
  | outOfRange => rfl
  | failed e =>
    cases e with
    | violation v => exact congrArg (fun v => Stop.failed (.violation v)) (Violation.rename_congr h)
    | _ => rfl

theorem Answer.rename_congr {x : Answer} (h : ∀ id ∈ x.ids, ρ id = σ id) : x.rename ρ = x.rename σ := by
  cases x with
  | ok r => exact congrArg Except.ok (Merged.rename_congr h)
  | error stop => exact congrArg Except.error (Stop.rename_congr h)

/-! ## One renaming after another -/

theorem Day.rename_rename (d : Day) : (d.rename ρ).rename σ = d.rename fun id => σ (ρ id) := by
  unfold rename
  rw [List.map_map]
  rfl

theorem Week.rename_rename (w : Week) : (w.rename ρ).rename σ = w.rename fun id => σ (ρ id) := by
  unfold rename
  rw [List.map_map]
  rfl

theorem Slot.rename_rename (s : Slot) : (s.rename ρ).rename σ = s.rename fun id => σ (ρ id) := by
  obtain ⟨day, loaded, pending⟩ := s
  cases day with
  | none => rfl
  | some d => exact congrArg (fun d => (⟨some d, loaded, pending⟩ : Slot)) d.rename_rename

theorem MemoryStore.rename_rename (m : MemoryStore) :
    (m.rename ρ).rename σ = m.rename fun id => σ (ρ id) := by
  unfold rename
  rw [List.map_map, List.map_map]
  exact congrArg₂ MemoryStore.mk (List.map_congr_left fun d _ => d.rename_rename)
    (List.map_congr_left fun w _ => w.rename_rename)

theorem Merged.rename_rename (r : Merged) : (r.rename ρ).rename σ = r.rename fun id => σ (ρ id) := by
  obtain ⟨outcome, day⟩ := r
  unfold rename
  rw [Day.rename_rename]
  cases outcome <;> rfl

theorem Stop.rename_rename (stop : Stop) : (stop.rename ρ).rename σ = stop.rename fun id => σ (ρ id) := by
  cases stop with
  | outOfRange => rfl
  | failed e =>
    cases e with
    | violation v => cases v <;> rfl
    | _ => rfl

theorem Answer.rename_rename (x : Answer) : (x.rename ρ).rename σ = x.rename fun id => σ (ρ id) := by
  cases x with
  | ok r => exact congrArg Except.ok r.rename_rename
  | error stop => exact congrArg Except.error stop.rename_rename

/-! ## Nothing to rename -/

theorem Day.rename_same (d : Day) : d.rename (fun id => id) = d := by
  unfold rename
  rw [show d.activities.map (·.rename fun id => id) = d.activities from List.map_id _]

theorem Week.rename_same (w : Week) : w.rename (fun id => id) = w := by
  unfold rename
  rw [List.map_id']

theorem Slot.rename_same (s : Slot) : s.rename (fun id => id) = s := by
  obtain ⟨day, loaded, pending⟩ := s
  cases day with
  | none => rfl
  | some d => exact congrArg (fun d => (⟨some d, loaded, pending⟩ : Slot)) d.rename_same

theorem MemoryStore.rename_same (m : MemoryStore) : m.rename (fun id => id) = m := by
  unfold rename
  rw [funext Day.rename_same, funext Week.rename_same, List.map_id', List.map_id']

theorem Placement.rename_same (p : Placement) : p.rename (fun id => id) = p := by
  obtain ⟨lookup, zone, date⟩ := p
  cases lookup with
  | empty => rfl
  | following => rfl
  | current d => exact congrArg (fun d => (⟨.current d, zone, date⟩ : Placement)) d.rename_same
  | preceding d? =>
    cases d? with
    | none => rfl
    | some d => exact congrArg (fun d => (⟨.preceding (some d), zone, date⟩ : Placement)) d.rename_same

theorem Merged.rename_same (r : Merged) : r.rename (fun id => id) = r := by
  obtain ⟨outcome, day⟩ := r
  have same : outcome.rename (fun id => id) = outcome := by cases outcome <;> rfl
  unfold rename
  rw [same, Day.rename_same]

theorem Slot.rename_eq_self {s : Slot} (h : ∀ id ∈ s.ids, ρ id = id) : s.rename ρ = s :=
  (rename_congr h).trans s.rename_same

theorem Day.rename_eq_self {d : Day} (h : ∀ id ∈ d.ids, ρ id = id) : d.rename ρ = d :=
  (rename_congr h).trans d.rename_same

theorem MemoryStore.rename_eq_self {m : MemoryStore} (h : ∀ id ∈ m.ids, ρ id = id) : m.rename ρ = m :=
  (rename_congr h).trans m.rename_same

/-! ## Reasons to stop that name no id -/

theorem Stop.rename_of_ids {stop : Stop} (h : stop.ids = []) : stop.rename ρ = stop := by
  cases stop with
  | outOfRange => rfl
  | failed e =>
    cases e with
    | violation v => cases v <;> first | rfl | cases h
    | _ => rfl

theorem World.Failing.ids {base : World} {stop : Stop} (h : base.Failing stop) : stop.ids = [] := by
  obtain ⟨-, e, rfl⟩ := h
  rfl

theorem Unplaced.ids {m : MemoryStore} {user : User} {goal : Id} {t : Instant} {cached : Option Day}
    {stop : Stop} (h : Unplaced m user goal t cached stop) : stop.ids = [] := by
  cases h with
  | user => rfl
  | cached => rfl
  | preceding _ lost => cases lost <;> rfl

theorem MemoryStore.ids_of_place {m : MemoryStore} {user : User} {goal : Id} {t : Instant}
    {cached : Option Day} {stop : Stop} (h : m.place user goal t cached = .error stop) : stop.ids = [] := by
  have unplaced := m.place_ok user goal t cached
  rw [h] at unplaced
  exact unplaced.ids

/-! ## Ids that were drawn -/

namespace Id

/-- The ids were drawn before `next`. -/
def Drawn (next : Nat) (ids : List Id) : Prop := ∀ id ∈ ids, id.value < next

theorem Drawn.mono {next next' : Nat} {ids : List Id} (h : Drawn next ids) (le : next ≤ next') :
    Drawn next' ids := fun id hid => Nat.lt_of_lt_of_le (h id hid) le

theorem Drawn.of_nil {next : Nat} {ids : List Id} (h : ids = []) : Drawn next ids :=
  h ▸ fun _ hid => absurd hid List.not_mem_nil

/-- Ids drawn from `since` on are moved on by as many as were skipped. -/
def shift (since skipped : Nat) (id : Id) : Id := if id.value < since then id else ⟨id.value + skipped⟩

variable {since skipped : Nat}

theorem shift_of_lt {id : Id} (h : id.value < since) : shift since skipped id = id := if_pos h

theorem shift_of_le {n : Nat} (h : since ≤ n) : shift since skipped ⟨n⟩ = ⟨n + skipped⟩ :=
  if_neg (Nat.not_lt.mpr h)

theorem shift_zero (id : Id) : shift since 0 id = id := by
  unfold shift
  split <;> rfl

theorem shift_injective : Function.Injective (shift since skipped) := by
  intro a b h
  have values := congrArg Id.value h
  unfold shift at values
  have same : a.value = b.value := by
    split at values <;> split at values
    · exact values
    all_goals
      simp only at values
      omega
  exact congrArg Id.mk same

end Id
end UsageDiary
