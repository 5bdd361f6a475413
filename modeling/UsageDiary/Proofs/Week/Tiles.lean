import UsageDiary.Proofs.Store.Rows

/-!
# Weeks tile the calendar

Every date belongs to the week of one Sunday, the last one up to it
(`Date.weekStart_eq_iff`), and a week that starts on a Sunday covers exactly
the dates of that Sunday (`Week.covers_iff`). So a weekday of the week names
one of its dates (`Week.dayId?_weekday`).

Days may be offered to a week one after the other (`Week.attachAll`); those
that it does not take leave it as it was. What one day changes
(`Week.lookup_after`) gives what they all change: the week has for each date
the id attached last (`Week.lookup_attachAll`). Main statement: `Week.tiles`.
-/

namespace UsageDiary

/-! ## Sundays -/

namespace Date

variable {d e s : Date} {n : Int}

theorem addDays?_eq_some_iff : d.addDays? n = some e ↔ e.day = d.day + n := by
  constructor
  · exact day_of_ofDay?
  · intro h
    rw [addDays?, ← h, ofDay?_day]

theorem isSome_addDays?_iff :
    (d.addDays? n).isSome = true ↔ -96465292 ≤ d.day + n ∧ d.day + n ≤ 95026236 := by
  rw [addDays?, ofDay?]
  split <;> simp [*]

/-- The Sunday of a date is its week's first date, if the calendar has it. -/
theorem weekday_weekStart (h : (d.addDays? (-d.weekday)).isSome = true) : d.weekStart.weekday = 0 := by
  obtain ⟨sunday, hsunday⟩ := Option.isSome_iff_exists.mp h
  have hday := day_of_ofDay? hsunday
  unfold weekStart
  rw [hsunday, Option.getD_some]
  unfold weekday at hday ⊢
  omega

/-- Within seven days from a Sunday a date's weekday tells how far it is. -/
theorem weekday_eq (sunday : s.weekday = 0) (le : s ≤ d) (lt : d.day < s.day + 7) :
    (d.weekday : Int) = d.day - s.day := by
  rw [le_def] at le
  unfold weekday at sunday ⊢
  omega

/-- The dates of a Sunday are the seven from it on. -/
theorem weekStart_eq_iff (sunday : s.weekday = 0) : d.weekStart = s ↔ s ≤ d ∧ d.day < s.day + 7 := by
  constructor
  · rintro rfl
    exact ⟨d.weekStart_le, d.lt_weekStart_add⟩
  · rintro ⟨le, lt⟩
    have far := weekday_eq sunday le lt
    have start : d.addDays? (-d.weekday) = some s := by
      rw [addDays?_eq_some_iff]
      omega
    rw [weekStart, start, Option.getD_some]

/-- A weekday counted from its Sunday is the date. -/
theorem addDays?_weekday (sunday : s.weekday = 0) (h : d.weekStart = s) :
    s.addDays? d.weekday = some d := by
  obtain ⟨le, lt⟩ := (weekStart_eq_iff sunday).mp h
  have far := weekday_eq sunday le lt
  rw [addDays?_eq_some_iff]
  omega

end Date

namespace Week

variable {w : Week} {date : Date} {day : Day}

theorem covers_iff (sunday : w.weekStart.weekday = 0) (ends : (w.weekStart.addDays? 7).isSome = true) :
    w.covers date = true ↔ date.weekStart = w.weekStart := by
  obtain ⟨next, hnext⟩ := Option.isSome_iff_exists.mp ends
  have hday := Date.addDays?_eq_some_iff.mp hnext
  rw [Date.weekStart_eq_iff sunday, covers, weekEnd, hnext, Option.getD_some, Bool.and_eq_true,
    decide_eq_true_iff, decide_eq_true_iff, Date.lt_def, hday]

theorem dayId?_weekday (sunday : w.weekStart.weekday = 0) (h : date.weekStart = w.weekStart) :
    w.dayId? date.weekday = lookup date w.days := by
  rw [dayId?, Date.addDays?_weekday sunday h, Option.bind_some]

/-! ## Attaching -/

/-- The week takes a day: the day is of its user and goal and lies in it. -/
def Takes (w : Week) (day : Day) : Prop :=
  day.user = w.user ∧ day.goal = w.goal ∧ w.covers day.date = true

instance (w : Week) (day : Day) : Decidable (w.Takes day) :=
  inferInstanceAs (Decidable (_ ∧ _ ∧ _))

/-- The week after a day was offered to it. -/
def after (w : Week) (day : Day) : Week :=
  match w.attach day with
  | .ok (_, attached) => attached
  | .error _ => w

/-- The week after days were offered to it, one after the other. -/
def attachAll (w : Week) (days : List Day) : Week := days.foldl after w

/-- The id that a day brings for a date, if the week takes it. -/
def brings? (w : Week) (date : Date) (day : Day) : Option Id :=
  if w.Takes day ∧ day.date = date then some day.id else none

theorem attach_of_takes (h : w.Takes day) : w.attach day =
    .ok (lookup day.date w.days ≠ some day.id, { w with days := put day.date day.id w.days }) := by
  rw [attach_eq h.1.symm h.2.1.symm, if_pos h.2.2]

theorem attach_of_not_takes (h : ¬ w.Takes day) : ∃ v, w.attach day = .error v := by
  unfold attach
  by_cases foreign : day.user ≠ w.user ∨ day.goal ≠ w.goal
  · exact ⟨_, if_pos foreign⟩
  · rw [if_neg foreign]
    rw [not_or, not_not, not_not] at foreign
    have outside : w.covers day.date = false := by
      rw [← Bool.not_eq_true]
      exact fun covers => h ⟨foreign.1, foreign.2, covers⟩
    rw [outside]
    exact ⟨_, rfl⟩

theorem attach_error_iff : (∃ v, w.attach day = .error v) ↔ ¬ w.Takes day := by
  refine ⟨fun ⟨v, refused⟩ takes => ?_, attach_of_not_takes⟩
  rw [attach_of_takes takes] at refused
  cases refused

theorem after_of_takes (h : w.Takes day) :
    w.after day = { w with days := put day.date day.id w.days } := by
  rw [after, attach_of_takes h]

theorem after_of_not_takes (h : ¬ w.Takes day) : w.after day = w := by
  obtain ⟨v, refused⟩ := attach_of_not_takes h
  rw [after, refused]

/-- A day changes the entry of its date only, and only if the week takes it. -/
theorem lookup_after (w : Week) (day : Day) (date : Date) :
    lookup date (w.after day).days = (w.brings? date day).or (lookup date w.days) := by
  unfold brings?
  by_cases takes : w.Takes day
  · rw [after_of_takes takes]
    by_cases same : day.date = date
    · rw [if_pos ⟨takes, same⟩, ← same, lookup_put, Option.some_or]
    · rw [if_neg fun h => same h.2, lookup_put_of_ne (Ne.symm same), Option.none_or]
  · rw [after_of_not_takes takes, if_neg fun h => takes h.1, Option.none_or]

theorem attachAll_append (w : Week) (days : List Day) (day : Day) :
    w.attachAll (days ++ [day]) = (w.attachAll days).after day := by
  rw [attachAll, List.foldl_append]
  rfl

/-- Only the entries of a week change. -/
theorem attachAll_eq (w : Week) (days : List Day) : ∃ entries, w.attachAll days = { w with days := entries } := by
  induction days using List.reverseRecOn with
  | nil => exact ⟨w.days, rfl⟩
  | append_singleton days day ih =>
    obtain ⟨entries, ih⟩ := ih
    rw [attachAll_append]
    by_cases takes : (w.attachAll days).Takes day
    · rw [after_of_takes takes, ih]
      exact ⟨_, rfl⟩
    · rw [after_of_not_takes takes]
      exact ⟨entries, ih⟩

theorem takes_attachAll (w : Week) (days : List Day) (day : Day) :
    (w.attachAll days).Takes day ↔ w.Takes day := by
  obtain ⟨entries, h⟩ := w.attachAll_eq days
  rw [h]
  exact Iff.rfl

/-- A week has for a date the id attached last, or the one it had. By
induction on the days from the last one. -/
theorem lookup_attachAll (w : Week) (days : List Day) (date : Date) :
    lookup date (w.attachAll days).days =
      (days.filterMap (w.brings? date)).getLast?.or (lookup date w.days) := by
  induction days using List.reverseRecOn with
  | nil => rfl
  | append_singleton days day ih =>
    have brings : (w.attachAll days).brings? date day = w.brings? date day := by
      simp only [brings?, takes_attachAll]
    rw [attachAll_append, lookup_after, brings, ih, List.filterMap_append, List.getLast?_append,
      ← Option.or_assoc]
    cases brought : w.brings? date day with
    | none => simp [brought]
    | some id => simp [brought]

/-- How a week answers once days were offered to it, one after the other. -/
structure Answers (w : Week) (offered : List Day) : Prop where
  /-- It is the week of the same user, goal and dates. -/
  same : ∃ entries, w.attachAll offered = { w with days := entries }
  /-- A day fails to be attached if it is of another user or goal or lies
  outside the week, which it leaves as it was. -/
  fails : ∀ day, (∃ v, (w.attachAll offered).attach day = .error v) ↔
    day.user ≠ w.user ∨ day.goal ≠ w.goal ∨ w.covers day.date = false
  unchanged : ∀ day v, (w.attachAll offered).attach day = .error v →
    (w.attachAll offered).after day = w.attachAll offered
  /-- Attaching a day says that nothing changed if its date had its id. -/
  repeated : ∀ day, (∃ week, (w.attachAll offered).attach day = .ok (false, week)) ↔
    w.Takes day ∧ (w.attachAll offered).dayId? day.date.weekday = some day.id
  /-- The weekday of a date has the id attached for it last. -/
  found : ∀ date, w.covers date = true → (w.attachAll offered).dayId? date.weekday =
    (offered.filterMap (w.brings? date)).getLast?.or (w.dayId? date.weekday)

theorem answers (sunday : w.weekStart.weekday = 0) (ends : (w.weekStart.addDays? 7).isSome = true)
    (offered : List Day) : w.Answers offered := by
  obtain ⟨entries, same⟩ := w.attachAll_eq offered
  have start : (w.attachAll offered).weekStart = w.weekStart := by rw [same]
  have onDate {date : Date} (h : w.covers date = true) :
      (w.attachAll offered).dayId? date.weekday = lookup date (w.attachAll offered).days :=
    dayId?_weekday (start ▸ sunday) (start ▸ (covers_iff sunday ends).mp h)
  refine ⟨⟨entries, same⟩, fun day => ?_, fun day v refused => ?_, fun day => ?_, fun date h => ?_⟩
  · rw [attach_error_iff, takes_attachAll, Takes, not_and_or, not_and_or, Bool.not_eq_true]
  · exact after_of_not_takes (attach_error_iff.mp ⟨v, refused⟩)
  · constructor
    · rintro ⟨week, unchanged⟩
      have takes : (w.attachAll offered).Takes day := by
        by_contra not
        obtain ⟨v, refused⟩ := attach_of_not_takes not
        rw [refused] at unchanged
        cases unchanged
      rw [attach_of_takes takes] at unchanged
      have takes := (w.takes_attachAll offered day).mp takes
      refine ⟨takes, ?_⟩
      rw [onDate takes.2.2]
      simpa using congrArg Prod.fst (Except.ok.inj unchanged)
    · rintro ⟨takes, had⟩
      rw [onDate takes.2.2] at had
      rw [attach_of_takes ((w.takes_attachAll offered day).mpr takes), had]
      simp
  · rw [onDate h, lookup_attachAll, dayId?_weekday sunday ((covers_iff sunday ends).mp h)]

/-- The week of a date starts on the last Sunday up to it and ends seven days
later. It covers the dates of that Sunday and no others, and answers by the
days attached to it. -/
theorem tiles {d : Date} (before : (d.addDays? (-6)).isSome = true) (after : (d.addDays? 7).isSome = true) :
    d.weekStart.weekday = 0 ∧ d.weekStart ≤ d ∧
      (∃ next, d.weekStart.addDays? 7 = some next ∧ d < next) ∧
      ∀ w : Week, w.weekStart = d.weekStart →
        (∀ d' : Date, w.covers d' = true ↔ d'.weekStart = d.weekStart) ∧
        ∀ offered, w.Answers offered := by
  have weekday := d.weekday_lt
  have le := d.weekStart_le
  have lt := d.lt_weekStart_add
  rw [Date.isSome_addDays?_iff] at before after
  have sunday : d.weekStart.weekday = 0 :=
    Date.weekday_weekStart (Date.isSome_addDays?_iff.mpr (by omega))
  have ends : (d.weekStart.addDays? 7).isSome = true := by
    rw [Date.le_def] at le
    have lower := d.weekStart.lower
    exact Date.isSome_addDays?_iff.mpr (by omega)
  obtain ⟨next, hnext⟩ := Option.isSome_iff_exists.mp ends
  have hday := Date.addDays?_eq_some_iff.mp hnext
  refine ⟨sunday, le, ⟨next, hnext, by rw [Date.lt_def, hday]; exact lt⟩, fun w start => ?_⟩
  rw [← start] at sunday ends ⊢
  exact ⟨fun d' => covers_iff sunday ends, answers sunday ends⟩

end Week

theorem Sample.attached_last : ((Week.create ⟨9⟩ ⟨2⟩ ⟨3⟩ (utcDay ⟨1⟩).date.weekStart .utc).attachAll
    [utcDay ⟨1⟩, eastDay ⟨5⟩]).dayId? (utcDay ⟨1⟩).date.weekday = some ⟨5⟩ := by
  obtain ⟨-, -, -, week⟩ := Week.tiles (d := (utcDay ⟨1⟩).date) (by decide +kernel) (by decide +kernel)
  obtain ⟨-, answers⟩ := week (Week.create ⟨9⟩ ⟨2⟩ ⟨3⟩ (utcDay ⟨1⟩).date.weekStart .utc) rfl
  refine ((answers [utcDay ⟨1⟩, eastDay ⟨5⟩]).found _ (by decide +kernel)).trans ?_
  decide +kernel

end UsageDiary
