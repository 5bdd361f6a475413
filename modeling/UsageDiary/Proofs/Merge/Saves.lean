import UsageDiary.Proofs.Analysis.Frame
import UsageDiary.Proofs.Merge.Effect
import UsageDiary.Proofs.Week.Entries

/-!
# What a merge saves

Which days and weeks were saved is read off the calls that were noted
(`World.saves`). Work that only looks at the store notes no save
(`Work.unsaving_looking`). So a merge that ends in a value saves its day
once if that changed (`Merged.saves`), and after it at most the week of the
day, and the week only if the day was not entered there (`WeekSaved`,
`Work.merge_saves`).
-/

namespace UsageDiary

namespace World

/-- The saves among the calls that were made. -/
def saves (w : World) : List Call := w.calls.filter (·.isSave)

/-- Nothing was saved in between. -/
structure Unsaved (w w' : World) : Prop where
  saves : w'.saves = w.saves

instance : Std.Refl Unsaved := ⟨fun _ => ⟨rfl⟩⟩
instance : IsTrans World Unsaved := ⟨fun _ _ _ h h' => ⟨h'.saves.trans h.saves⟩⟩

end World

/-- A merge saves the day if the event changed it. -/
def Merged.saves (r : Merged) : List Call :=
  if r.outcome.isPersisted then
    [.saveDay r.day.user r.day.goal r.day.date r.day.activities.length]
  else []

/-- What is saved of weeks when a day is to be entered in one: nothing, or
the week, which did not have the id of the day for its date. -/
inductive WeekSaved (m : MemoryStore) (d : Day) : List Call → Prop where
  | nothing : WeekSaved m d []
  | week {days : Nat} (other : m.entered? d.user d.goal d.date ≠ some d.id) :
      WeekSaved m d [.saveWeek d.user d.goal d.date.weekStart days]

theorem WeekSaved.congr {m m' : MemoryStore} {d : Day} {cs : List Call} (h : WeekSaved m' d cs)
    (weeks : m'.weeks = m.weeks) : WeekSaved m d cs := by
  cases h with
  | nothing => exact .nothing
  | week other =>
    rw [MemoryStore.entered?_congr weeks] at other
    exact .week other

namespace Work

variable {α β : Type} {base w : World} {user goal : Id} {v : Scope} {d : Day}

/-- Work notes no save. -/
abbrev IsUnsaving (x : Work α) : Prop := Within World.Unsaved x

/-- A call that is noted is a save or not. -/
theorem record_saves (c : Call) (w : World) :
    WP (record c) w (fun _ w' => w'.saves = w.saves ++ if c.isSave then [c] else [])
      fun _ _ => False := by
  show (w.calls ++ [c]).filter (·.isSave) = _
  rw [List.filter_append]
  cases saves : c.isSave <;> simp [World.saves, saves]

theorem unsaving_looking : Looking IsUnsaving where
  pure := .pure
  throw _ := ⟨Std.Refl.refl⟩
  bind := .bind
  report _ := ⟨fun _ => ⟨rfl⟩⟩
  record {c} noted := by
    refine ⟨fun w => ⟨(record_saves c w).trans ?_⟩⟩
    rw [noted]
    exact List.append_nil _
  freshId := ⟨fun _ => ⟨rfl⟩⟩
  outage _ := ⟨fun _ => ⟨rfl⟩⟩
  store hf := .bind .get fun _ => hf _

/-- What comes after work that notes no save finds the saves as they were. -/
theorem IsUnsaving.wp_bind {x : Work α} {f : α → Work β} {next : β → World → Prop} (hx : IsUnsaving x)
    (hf : ∀ a w', w'.saves = w.saves → WP (f a) w' next fun _ _ => True) :
    WP (x >>= f) w next fun _ _ => True :=
  ((any x w).within hx).bind (fun a w' ⟨_, same⟩ => hf a w' same.saves) fun _ _ _ => trivial

/-- A call to save something that ends well is noted once. -/
theorem save_saves {call : CallKind} (save : Store → Store.Reply Store) {note : Call}
    (saves : note.isSave = true) (w : World) :
    WP (guarded call do
        record note
        let store ← answer (save (← get).store)
        modify fun w => { w with store := store }) w
      (fun _ w' => w'.saves = w.saves ++ [note]) fun _ _ => True := by
  refine IsUnsaving.wp_bind (unsaving_looking.meetOutage call) fun met w₁ same => ?_
  cases met with
  | some o => exact trivial
  | none =>
    refine (record_saves note w₁).bind (fun _ w₂ noted => ?_) fun _ _ => False.elim
    have stores : IsUnsaving (get >>= fun w => answer (save w.store) >>= fun store =>
        modify fun w : World => { w with store := store }) :=
      unsaving_looking.store (f := fun store => answer (save store) >>= fun saved =>
        modify fun w : World => { w with store := saved }) fun store =>
          .bind (unsaving_looking.answer _) fun _ => ⟨fun _ => ⟨rfl⟩⟩
    refine ((any _ w₂).within stores).mono (fun _ w₃ ⟨_, kept⟩ => ?_) fun _ _ _ => trivial
    rw [kept.saves, noted, saves, same]
    rfl

theorem saveDay_saves (d : Day) (w : World) :
    WP (saveDay d) w
      (fun _ w' => w'.saves = w.saves ++ [.saveDay d.user d.goal d.date d.activities.length])
      fun _ _ => True :=
  save_saves (·.saveDay d) rfl w

theorem saveWeek_saves (week : Week) (w : World) :
    WP (saveWeek week) w
      (fun _ w' => w'.saves = w.saves ++ [.saveWeek week.user week.goal week.weekStart week.days.length])
      fun _ _ => True :=
  save_saves (·.saveWeek week) rfl w

/-- A week that a day belongs to is saved if it is new or does not have the
day's id for its date. -/
theorem attachTo_saves {week : Week} (isNew : Bool) (user : week.user = d.user)
    (goal : week.goal = d.goal) (start : week.weekStart = d.date.weekStart) {m : MemoryStore}
    (other : isNew || Week.lookup d.date week.days ≠ some d.id →
      m.entered? d.user d.goal d.date ≠ some d.id) (w : World) :
    WP (attachTo isNew week d) w (fun _ w' => ∃ cs, WeekSaved m d cs ∧ w'.saves = w.saves ++ cs)
      fun _ _ => True := by
  unfold attachTo
  rw [Week.attach_eq user goal]
  cases week.covers d.date with
  | false => exact trivial
  | true =>
    refine WP.ite (fun changed => ?_) fun _ => ?_
    · refine (saveWeek_saves _ w).bind (fun _ w₁ saved => ?_) fun _ _ => id
      refine IsUnsaving.wp_bind (unsaving_looking.report _) fun _ w₂ same => ?_
      have saved := same.trans saved
      rw [user, goal, start] at saved
      exact WP.pure ⟨_, .week (other changed), saved⟩
    · exact WP.pure ⟨[], .nothing, (List.append_nil _).symm⟩

theorem attachDay_saves (h : base.At user goal v w) :
    WP (attachDay d) w (fun _ w' => ∃ cs, WeekSaved v.store d cs ∧ w'.saves = w.saves ++ cs)
      fun _ _ => True := by
  unfold attachDay
  refine ((findWeek_ok _ _ _ h).within (unsaving_looking.findWeek ..)).bind
    (fun found w₁ ⟨⟨hfound, _⟩, same⟩ => ?_) fun _ _ _ => trivial
  rw [← same.saves]
  cases found with
  | none =>
    refine IsUnsaving.wp_bind unsaving_looking.freshId fun id w₂ same => ?_
    rw [← same]
    refine attachTo_saves true rfl rfl rfl (fun _ => ?_) w₂
    rw [MemoryStore.entered?_of_findWeek_eq_none hfound.symm]
    exact nofun
  | some week =>
    obtain ⟨user, goal, start⟩ := MemoryStore.key_of_findWeek hfound.symm
    refine attachTo_saves false user goal start (fun other => ?_) w₁
    rw [MemoryStore.entered?_of_findWeek hfound.symm]
    simpa using other

theorem attachPending_saves (attaches cached : Bool) (h : base.At user goal v w) :
    WP (attachPending user goal attaches cached d) w
      (fun _ w' => ∃ cs, WeekSaved v.store d cs ∧ w'.saves = w.saves ++ cs) fun _ _ => True := by
  unfold attachPending
  refine WP.ite (fun _ => ?_) fun _ => ?_
  · refine (attachDay_saves h).bind (fun _ w₁ ⟨cs, week, saved⟩ => ?_) fun _ _ => id
    cases cached <;> exact ⟨cs, week, saved⟩
  · exact WP.pure ⟨[], .nothing, (List.append_nil _).symm⟩

section Merge

variable {user : User} {slot : Slot}

/-- Recording an event saves the day if it changed. -/
theorem recordEvent_saves (s : Settings) (slot : Slot) (user : User) (goal : Id) (e : UsageEvent)
    (w : World) :
    WP (recordEvent s slot user goal e) w (fun recorded w' => w'.saves = w.saves ++ recorded.2.saves)
      fun _ _ => True := by
  unfold recordEvent
  refine IsUnsaving.wp_bind (unsaving_looking.place ..) fun p w₁ same₁ => ?_
  refine IsUnsaving.wp_bind (unsaving_looking.report _) fun _ w₂ same₂ => ?_
  refine IsUnsaving.wp_bind (unsaving_looking.takeDay ..) fun (d, opened) w₃ same₃ => ?_
  refine WP.ite_bind (fun w' => w'.saves = w₃.saves) (fun _ => rfl) (fun _ => rfl) (fun w₄ same₄ => ?_)
    fun _ _ => id
  refine IsUnsaving.wp_bind (unsaving_looking.apply ..) fun r w₅ same₅ => ?_
  have same : w₅.saves = w.saves := by rw [same₅, same₄, same₃, same₂, same₁]
  rw [← same]
  refine WP.ite_bind (fun w' => w'.saves = w₅.saves ++ r.saves) (fun changed => ?_) (fun kept => ?_)
    (fun _ saved => WP.pure saved) fun _ _ => id
  · rw [Merged.saves, if_pos changed]
    exact saveDay_saves r.day w₅
  · rw [Merged.saves, if_neg kept, List.append_nil]

/-- Settling a recorded day saves at most its week. -/
theorem settle_saves (p : Placement) (r : Merged) (h : base.At user.id goal v w) :
    WP (settle slot user.id goal p r) w
      (fun r' w' => r' = r ∧ ∃ cs, WeekSaved v.store r.day cs ∧ w'.saves = w.saves ++ cs)
      fun _ _ => True := by
  have caches : IsUnsaving (setSlot user.id goal (slot.replace r.day)) := ⟨fun _ => ⟨rfl⟩⟩
  unfold settle
  refine WP.ite_bind (fun w' => w'.saves = w.saves ∧ ∃ v', v'.store = v.store ∧ base.At user.id goal v' w')
    (fun _ => ?_) (fun _ => ⟨rfl, v, rfl, h⟩) (fun w₁ cached => ?_) fun _ _ => id
  · refine ((setSlot_ok _ h).within caches).mono (fun _ w₁ ⟨h₁, same⟩ => ?_) fun _ _ _ => trivial
    exact ⟨same.saves, { v with slot := slot.replace r.day }, rfl, h₁⟩
  obtain ⟨same, v', store, h₁⟩ := cached
  rw [← same, ← store]
  refine (attachPending_saves _ _ h₁).bind (fun _ w₂ saved => ?_) fun _ _ => id
  refine IsUnsaving.wp_bind (unsaving_looking.report _) fun _ w₃ same => ?_
  rw [← same] at saved
  exact WP.pure ⟨rfl, saved⟩

/-- A merge saves the day once if it changed, and after it at most the week
of the day, which did not have the day for its date. -/
theorem merge_saves (s : Settings) (e : UsageEvent) (h : w.At user.id goal v w) :
    WP (merge s user goal e) w
      (fun r w' => ∃ cs, WeekSaved v.store r.day cs ∧ w'.saves = w.saves ++ r.saves ++ cs)
      fun _ _ => True := by
  have loads : IsUnsaving (loadedSlot user.id goal) :=
    .bind ⟨fun _ => ⟨rfl⟩⟩ fun _ => .ite (.pure _) (.bind (unsaving_looking.findLast ..) fun _ =>
      .bind ⟨fun _ => ⟨rfl⟩⟩ fun _ => .pure _)
  rw [merge_eq]
  refine ((loadedSlot_ok h).within loads).bind (fun slot w₁ ⟨⟨hslot, h₁⟩, same⟩ => ?_)
    fun _ _ _ => trivial
  rw [hslot, ← same.saves]
  refine ((recordEvent_ok h₁).and (recordEvent_saves ..)).bind
    (fun (p, r) w₂ ⟨⟨d, opened, next, v', recorded, h₂⟩, day⟩ => ?_) fun _ _ _ => trivial
  refine (settle_saves p r h₂).mono (fun r' w₃ ⟨hr, cs, week, saved⟩ => ?_) fun _ _ => id
  rw [day] at saved
  exact hr ▸ ⟨cs, week.congr recorded.weeks, saved⟩

end Merge
end Work
end UsageDiary
