import UsageDiary.Proofs.Analysis.Frame

/-!
# The parts and goals of an event

What an analysis works out before it merges anything: the parts that an
event is split into, by the bounds of local days (`UsageEvent.Splits`,
`Work.split_ok`), and the goals that it counts for, which are the user's
goals in a category of its labels (`Goal.Counts`, `Work.matchingGoals_ok`).
-/

namespace UsageDiary

/-! ## What work finds out -/

namespace Work

variable {α β : Type} {w : World}

/-- What each item is turned into holds of all of them. -/
theorem mapM_value {f : α → Work β} {into : α → β → Prop} {l : List α}
    (each : ∀ a ∈ l, ∀ {w b w'}, (f a).exec w = (.ok b, w') → into a b) (w : World) :
    WP (l.mapM f) w (fun bs _ => (∀ a ∈ l, ∃ b ∈ bs, into a b) ∧ ∀ b ∈ bs, ∃ a ∈ l, into a b)
      fun _ _ => True := by
  induction l generalizing w with
  | nil => exact WP.pure ⟨by simp, by simp⟩
  | cons a rest ih =>
    rw [List.mapM_cons]
    refine (any (f a) w).exec.bind (fun b w₁ ⟨exec, _⟩ => ?_) fun _ _ h => h.2
    have hb := each a List.mem_cons_self exec
    refine (ih (fun a' ha' => each a' (List.mem_cons_of_mem a ha')) w₁).bind
      (fun bs w₂ ⟨turned, origin⟩ => ?_) fun _ _ => id
    refine WP.pure ⟨fun a' ha' => ?_, fun b' hb' => ?_⟩
    · rcases List.mem_cons.mp ha' with rfl | ha'
      · exact ⟨b, List.mem_cons_self, hb⟩
      · obtain ⟨b', hb', into'⟩ := turned a' ha'
        exact ⟨b', List.mem_cons_of_mem b hb', into'⟩
    · rcases List.mem_cons.mp hb' with rfl | hb'
      · exact ⟨a, List.mem_cons_self, hb⟩
      · obtain ⟨a', ha', into'⟩ := origin b' hb'
        exact ⟨a', List.mem_cons_of_mem a ha', into'⟩

end Work

/-- The parts of an event, by the bounds of the days it starts and ends in. -/
inductive UsageEvent.Splits (zone : Zone) (e : UsageEvent) : List UsageEvent → Prop where
  | whole {date : Date} {next : Instant} (shows : zone.localDate? e.starts = some date)
      (ends : zone.startOfNextDay date = .ok next) (within : e.ends ≤ next) : Splits zone e [e]
  | cut {date endDate : Date} {next start : Instant} (shows : zone.localDate? e.starts = some date)
      (ends : zone.startOfNextDay date = .ok next) (past : next < e.ends)
      (showsEnd : zone.localDate? e.ends = some endDate) (starts : zone.startOfDay endDate = .ok start)
      (none : e.ends ≤ start) : Splits zone e [{ e with ends := next }]
  | both {date endDate : Date} {next start : Instant} (shows : zone.localDate? e.starts = some date)
      (ends : zone.startOfNextDay date = .ok next) (past : next < e.ends)
      (showsEnd : zone.localDate? e.ends = some endDate) (starts : zone.startOfDay endDate = .ok start)
      (some : start < e.ends) : Splits zone e [{ e with ends := next }, { e with starts := start }]

theorem Work.split_ok (zone : Zone) (e : UsageEvent) (w : World) :
    WP (e.split zone) w (fun parts _ => e.Splits zone parts) fun _ _ => True := by
  unfold UsageEvent.split
  refine (inRange_ok _ w).bind (fun date w₁ ⟨shows, _⟩ => ?_) fun _ _ _ => trivial
  refine (ofZone_ok _ w₁).bind (fun next w₂ ⟨ends, _⟩ => ?_) fun _ _ _ => trivial
  refine WP.ite (fun within => WP.pure (.whole shows ends within)) fun past => ?_
  have past := lt_of_not_ge past
  refine (inRange_ok _ w₂).bind (fun endDate w₃ ⟨showsEnd, _⟩ => ?_) fun _ _ _ => trivial
  refine (ofZone_ok _ w₃).bind (fun start w₄ ⟨starts, _⟩ => ?_) fun _ _ _ => trivial
  refine (any _ w₄).bind (fun _ w₅ _ => ?_) fun _ _ => id
  refine WP.ite (fun some => ?_) fun none => ?_
  · exact WP.pure (.both shows ends past showsEnd starts some)
  · exact WP.pure (.cut shows ends past showsEnd starts (le_of_not_gt none))

/-! ## Goals that are matched -/

theorem mem_insertId {id x : Id} {ids : List Id} : x ∈ insertId id ids ↔ x = id ∨ x ∈ ids := by
  induction ids with
  | nil => simp [insertId]
  | cons y rest ih =>
    simp only [insertId]
    split
    · simp
    · split
      · next same => simp [same]
      · simp only [List.mem_cons, ih]
        tauto

theorem mem_insertIds {x : Id} {ids sorted : List Id} :
    x ∈ insertIds ids sorted ↔ x ∈ ids ∨ x ∈ sorted := by
  unfold insertIds
  induction ids generalizing sorted with
  | nil => simp
  | cons id rest ih =>
    simp only [List.foldl_cons, ih, mem_insertId, List.mem_cons]
    tauto

/-- A goal of a user is in a category of one of these labels, and was active
at an instant. -/
structure Goal.Counts (directory : List (String × List Id)) (labels : List String) (t : Instant)
    (g : Goal) : Prop where
  category : ∃ label ∈ labels, g.category ∈ (directory.lookup label).getD []
  active : g.activeSince ≤ t

namespace Work

theorem categoriesOf_ok (label : String) (w : World) :
    WP (categoriesOf label) w
      (fun found w' => (∀ id ∈ (w.directory.lookup label).getD [], id ∈ found) ∧
        w'.directory = w.directory) fun _ _ => True := by
  unfold categoriesOf
  refine ((any _ w).within (still_meetOutage .categories)).bind (fun met w₁ ⟨_, still⟩ => ?_) fun _ _ h => h.1
  cases met with
  | some o => exact trivial
  | none =>
    refine ⟨fun id hid => ?_, still.directory⟩
    rw [← still.directory] at hid
    exact mem_insertIds.mpr (.inl hid)

theorem categoriesFor_ok (labels : List String) (w : World) :
    WP (categoriesFor labels) w (fun found _ => ∀ label ∈ labels,
      ∀ id ∈ (w.directory.lookup label).getD [], id ∈ found) fun _ _ => True := by
  have collects (labels : List String) (sorted : List Id) (w₁ : World)
      (directory : w₁.directory = w.directory) :
      WP (labels.foldlM (fun sorted label => return insertIds (← categoriesOf label) sorted) sorted) w₁
        (fun found _ => (∀ label ∈ labels, ∀ id ∈ (w.directory.lookup label).getD [], id ∈ found) ∧
          ∀ id ∈ sorted, id ∈ found) fun _ _ => True := by
    induction labels generalizing sorted w₁ with
    | nil => exact WP.pure ⟨by simp, fun id hid => hid⟩
    | cons label rest ih =>
      rw [List.foldlM_cons]
      have adds : WP (do return insertIds (← categoriesOf label) sorted) w₁
          (fun more w₂ => (∀ id ∈ (w.directory.lookup label).getD [], id ∈ more) ∧
            (∀ id ∈ sorted, id ∈ more) ∧ w₂.directory = w.directory) fun _ _ => True := by
        refine (categoriesOf_ok label w₁).bind (fun found w₂ ⟨all, same⟩ => ?_) fun _ _ => id
        rw [directory] at all
        exact WP.pure ⟨fun id hid => mem_insertIds.mpr (.inl (all id hid)),
          fun id hid => mem_insertIds.mpr (.inr hid), same.trans directory⟩
      refine adds.bind (fun more w₂ ⟨all, kept, same⟩ => ?_) fun _ _ => id
      refine (ih more w₂ same).mono (fun found w₃ ⟨rest, more⟩ => ⟨?_, fun id hid => more id (kept id hid)⟩)
        fun _ _ => id
      intro l hl id hid
      rcases List.mem_cons.mp hl with rfl | hl
      · exact more id (all id hid)
      · exact rest l hl id hid
  exact (collects labels [] w rfl).mono (fun _ _ h => h.1) fun _ _ => id

theorem goalsOf_value (user : User) (w : World) :
    WP (goalsOf user) w (fun goals _ => goals = user.goals) fun _ _ => True := by
  unfold goalsOf
  refine (any _ w).bind (fun met _ _ => ?_) fun _ _ => id
  cases met with
  | some o => exact trivial
  | none => exact rfl

/-- The goals that are matched are the user's, and every one that counts is
among them. -/
theorem matchingGoals_ok (user : User) (labels : List String) (t : Instant) (w : World) :
    WP (matchingGoals user labels t) w
      (fun goals _ => (∀ g ∈ goals, g ∈ user.goals) ∧
        ∀ g ∈ user.goals, g.Counts w.directory labels t → g ∈ goals) fun _ _ => True := by
  unfold matchingGoals
  refine (categoriesFor_ok labels w).bind (fun found w₁ all => ?_) fun _ _ => id
  refine WP.ite (fun empty => WP.pure ⟨by simp, fun g _ counts => ?_⟩) fun _ => ?_
  · obtain ⟨label, hl, hg⟩ := counts.category
    rw [List.isEmpty_iff.mp empty] at all
    exact absurd (all label hl _ hg) (by simp)
  · refine (goalsOf_value user w₁).bind (fun gs w₂ same => ?_) fun _ _ => id
    refine (any _ w₂).bind (fun _ w₃ _ => ?_) fun _ _ => id
    refine WP.pure ⟨fun g hg => same ▸ (matching_mem hg).1, fun g hg counts => ?_⟩
    obtain ⟨label, hl, hcategory⟩ := counts.category
    simp only [matching, List.mem_filter, Bool.and_eq_true, List.contains_iff_mem, Goal.wasActiveAt,
      decide_eq_true_eq]
    exact ⟨same ▸ hg, all label hl _ hcategory, counts.active⟩

end Work
end UsageDiary
