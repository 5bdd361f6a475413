import UsageDiary.Proofs.Merge.Windows
import UsageDiary.Proofs.Run

/-!
# New activities

An activity that is created for an event lies in its day around the event,
cut at the end of the day, and lasts the minimum duration where the day has
room for it (`Activity.Suits`). The day accepts it, in every world that the
event is applied in, and every merge that answers with a new activity has
put it into its day (`created_activity_suits`).

The activity is the event, reaches the minimum duration forward, or is moved
back from the end of the day (`Settings.stretch?_cases`). Neither needs the
bounds of the day to be those of its date, so this holds of a day of any
length. A merge is taken apart here with any store (`Work.merge_any`).
-/

namespace UsageDiary

/-- An event starts in a day, outside every leap second, and what is added to
its start or taken from the end of the day stays in the calendar. -/
structure UsageEvent.StartsIn (s : Settings) (e : UsageEvent) (d : Day) : Prop where
  covers : d.covers e.starts = true
  ordered : e.starts ≤ e.ends
  starts : e.starts.Ordinary
  ends : e.ends.Ordinary
  dayStarts : d.starts.Ordinary
  dayEnds : d.ends.Ordinary
  forward : (min e.ends d.ends).since e.starts < s.minimum → (e.starts.shift? s.minimum).isSome = true
  back : ∀ later ∈ e.starts.shift? s.minimum, d.ends < later → (d.ends.shift? (-s.minimum)).isSome = true

/-- An activity suits an event that starts in a day. -/
structure Activity.Suits (s : Settings) (e : UsageEvent) (d : Day) (a : Activity) : Prop where
  within : d.starts ≤ a.starts ∧ a.ends ≤ d.ends
  /-- The event lies in it, cut at the end of the day. -/
  contains : a.starts ≤ e.starts ∧ min e.ends d.ends ≤ a.ends
  /-- It is no shorter than the minimum duration or the day. -/
  lasts : min s.minimum (d.ends.since d.starts) ≤ a.duration
  /-- It is longer than the cut event only up to that. -/
  no_longer : (min e.ends d.ends).since e.starts < a.duration →
    a.duration ≤ min s.minimum (d.ends.since d.starts)
  /-- It starts before the event only if the minimum duration after the start
  of the event crosses the end of the day. -/
  moved : a.starts < e.starts → ∀ later, e.starts.shift? s.minimum = some later → d.ends < later

section Suits

variable {s : Settings} {d : Day} {e : UsageEvent}

theorem UsageEvent.StartsIn.ordinary_fit (h : e.StartsIn s d) : (e.fit d).ends.Ordinary := by
  unfold UsageEvent.fit
  split
  · exact h.ends
  · exact h.dayEnds

theorem UsageEvent.StartsIn.exists_stretch? (h : e.StartsIn s d)
    (minimum : s.minimumDuration? = some s.minimum) :
    ∃ starts ends, s.stretch? d (e.fit d) = some (starts, ends) := by
  unfold Settings.stretch?
  simp only [minimum, Option.bind_eq_bind, Option.bind_some, starts_fit, ends_fit]
  split
  · next short =>
    obtain ⟨later, hlater⟩ := Option.isSome_iff_exists.mp (h.forward short)
    rw [hlater, Option.bind_some]
    split
    · next crosses =>
      obtain ⟨earlier, hearlier⟩ := Option.isSome_iff_exists.mp (h.back later hlater crosses)
      rw [hearlier]
      exact ⟨_, _, rfl⟩
    · exact ⟨_, _, rfl⟩
  · exact ⟨_, _, rfl⟩

theorem UsageEvent.StartsIn.ordinary_cut (h : e.StartsIn s d) : (min e.ends d.ends).Ordinary := by
  rw [← UsageEvent.ends_fit]
  exact h.ordinary_fit

/-- An event that starts in a day, cut at its end, in nanoseconds. -/
theorem UsageEvent.StartsIn.nanos (h : e.StartsIn s d) :
    d.starts.nanos ≤ e.starts.nanos ∧ e.starts.nanos < d.ends.nanos ∧
      e.starts.nanos ≤ (min e.ends d.ends).nanos ∧ (min e.ends d.ends).nanos ≤ d.ends.nanos := by
  obtain ⟨after, before⟩ := Day.covers_def.mp h.covers
  have ordered : e.starts ≤ min e.ends d.ends := le_min h.ordered (le_of_lt before)
  have fits : min e.ends d.ends ≤ d.ends := min_le_right _ _
  rw [Instant.le_iff_nanos h.dayStarts h.starts] at after
  rw [Instant.lt_iff_nanos h.starts h.dayEnds] at before
  rw [Instant.le_iff_nanos h.starts h.ordinary_cut] at ordered
  rw [Instant.le_iff_nanos h.ordinary_cut h.dayEnds] at fits
  exact ⟨after, before, ordered, fits⟩

/-- The three ways to stretch an event, in nanoseconds: it is long enough, it
is stretched forward, or it is moved back from the end of the day. -/
theorem UsageEvent.StartsIn.nanos_of_stretch? (h : e.StartsIn s d)
    (minimum : s.minimumDuration? = some s.minimum) {starts ends : Instant}
    (stretched : s.stretch? d (e.fit d) = some (starts, ends)) :
    (starts.Ordinary ∧ ends.Ordinary) ∧
      (e.starts.nanos + s.minimum ≤ (min e.ends d.ends).nanos ∧
          starts.nanos = e.starts.nanos ∧ ends.nanos = (min e.ends d.ends).nanos ∨
        (min e.ends d.ends).nanos < e.starts.nanos + s.minimum ∧
          starts.nanos = e.starts.nanos ∧ ends.nanos = e.starts.nanos + s.minimum ∧
          ends.nanos ≤ d.ends.nanos ∨
        (min e.ends d.ends).nanos < e.starts.nanos + s.minimum ∧
          d.ends.nanos < e.starts.nanos + s.minimum ∧ ends.nanos = d.ends.nanos ∧
          starts.nanos = max (d.ends.nanos - s.minimum) d.starts.nanos) := by
  have hstarts : (e.fit d).starts.Ordinary := by
    rw [UsageEvent.starts_fit]
    exact h.starts
  have cases := Settings.stretch?_cases minimum h.dayStarts h.dayEnds hstarts h.ordinary_fit stretched
  rw [UsageEvent.starts_fit, UsageEvent.ends_fit] at cases
  rcases cases with ⟨long, hs, he⟩ | ⟨short, hs, he, hends, room⟩ |
    ⟨short, crosses, he, hs, ⟨back, later⟩ | ⟨full, earlier⟩⟩
  · rw [hs, he]
    exact ⟨⟨h.starts, h.ordinary_cut⟩, .inl ⟨long, rfl, rfl⟩⟩
  · rw [hs]
    exact ⟨⟨h.starts, he⟩, .inr (.inl ⟨short, rfl, hends, room⟩)⟩
  · rw [he]
    exact ⟨⟨hs, h.dayEnds⟩, .inr (.inr ⟨short, crosses, rfl, by omega⟩)⟩
  · rw [he]
    exact ⟨⟨hs, h.dayEnds⟩, .inr (.inr ⟨short, crosses, rfl, by rw [full]; omega⟩)⟩

/-- The bounds of a new activity suit the event. -/
theorem suits_of_stretch? (valid : s.validate = .ok ()) (h : e.StartsIn s d) {a : Activity}
    (stretched : s.stretch? d (e.fit d) = some (a.starts, a.ends)) :
    d.contains a.starts a.ends = true ∧ a.Suits s e d := by
  obtain ⟨minimum, positive⟩ := Settings.minimum_of_validate valid
  obtain ⟨⟨starts, ends⟩, shape⟩ := h.nanos_of_stretch? minimum stretched
  have inDay := h.nanos
  have lasts : a.duration = a.ends.nanos - a.starts.nanos := Instant.since_of_ordinary ends starts
  have dayLasts := Instant.since_of_ordinary h.dayEnds h.dayStarts
  have cutLasts := Instant.since_of_ordinary h.ordinary_cut h.starts
  have inside : a.starts ≤ a.ends ∧ d.starts ≤ a.starts ∧ a.ends ≤ d.ends := by
    rw [Instant.le_iff_nanos starts ends, Instant.le_iff_nanos h.dayStarts starts,
      Instant.le_iff_nanos ends h.dayEnds]
    omega
  refine ⟨by simp [Day.contains, inside], inside.2, ?_, ?_, fun longer => ?_, fun moved later hlater => ?_⟩
  · rw [Instant.le_iff_nanos starts h.starts, Instant.le_iff_nanos h.ordinary_cut ends]
    omega
  · rw [lasts, dayLasts]
    omega
  · rw [lasts, cutLasts] at longer
    change ((min e.ends d.ends).nanos - e.starts.nanos : Int) < a.ends.nanos - a.starts.nanos at longer
    rw [lasts, dayLasts]
    change (a.ends.nanos - a.starts.nanos : Int) ≤ min s.minimum (d.ends.nanos - d.starts.nanos)
    omega
  · obtain ⟨hordinary, hn⟩ := Instant.shift?_of_ordinary h.starts hlater
    rw [Instant.lt_iff_nanos starts h.starts] at moved
    rw [Instant.lt_iff_nanos h.dayEnds hordinary]
    omega

end Suits

/-! ## Merges with any store -/

namespace Work

variable {s : Settings} {d : Day} {opened : Bool} {e : UsageEvent} {w : World}

theorem apply_any (s : Settings) (d : Day) (opened : Bool) (e : UsageEvent) (w : World) :
    WP (apply s d opened e) w (fun r _ => ∃ next next', Applied s d opened e next r next')
      fun _ _ => True := by
  unfold apply
  refine (inRange_ok _ w).bind (fun decision w₁ ⟨decided, _⟩ => ?_) fun _ _ _ => trivial
  cases decision with
  | create =>
    refine (inRange_ok _ w₁).bind (fun bounds w₂ ⟨stretched, _⟩ => ?_) fun _ _ _ => trivial
    have fresh : WP freshId w₂ (fun drawn _ => drawn = ⟨w₂.nextId⟩) fun _ _ => True := rfl
    refine fresh.bind (fun drawn w₃ hdrawn => ?_) fun _ _ => id
    rw [hdrawn]
    refine (respecting_ok _ w₃).bind (fun d' w₄ ⟨added, _⟩ => ?_) fun _ _ _ => trivial
    exact WP.pure ⟨_, _, .create decided stretched added⟩
  | extend last =>
    refine (respecting_ok _ w₁).bind (fun r w₂ ⟨extended, _⟩ => ?_) fun _ _ _ => trivial
    exact WP.pure ⟨0, 0, .extend decided extended⟩
  | absorb a => exact WP.pure ⟨0, 0, .absorb decided⟩

theorem recordEvent_any (s : Settings) (slot : Slot) (user : User) (goal : Id) (e : UsageEvent) (w : World) :
    WP (recordEvent s slot user goal e) w
      (fun recorded _ => ∃ d opened next next', Applied s d opened (e.fit d) next recorded.2 next')
      fun _ _ => True := by
  unfold recordEvent
  refine (any _ w).bind (fun p w₁ _ => (any _ w₁).bind (fun _ w₂ _ => ?_) fun _ _ => id) fun _ _ => id
  refine (any _ w₂).bind (fun taken w₃ _ => ?_) fun _ _ => id
  obtain ⟨d, opened⟩ := taken
  refine WP.ite_bind (fun _ => True) (fun _ => any _ w₃) (fun _ => trivial) (fun w₄ _ => ?_) fun _ _ => id
  refine (apply_any s d opened (e.fit d) w₄).bind (fun r w₅ applied => ?_) fun _ _ => id
  obtain ⟨next, next', applied⟩ := applied
  exact WP.ite_bind (fun _ => True) (fun _ => any _ w₅) (fun _ => trivial)
    (fun _ _ => WP.pure ⟨d, opened, next, next', applied⟩) fun _ _ => id

theorem settle_any (slot : Slot) (user goal : Id) (p : Placement) (r : Merged) (w : World) :
    WP (settle slot user goal p r) w (fun r' _ => r' = r) fun _ _ => True := by
  unfold settle
  refine WP.ite_bind (fun _ => True) (fun _ => any _ w) (fun _ => trivial) (fun w₁ _ => ?_) fun _ _ => id
  refine (any _ w₁).bind (fun _ w₂ _ => (any _ w₂).bind (fun _ _ _ => ?_) fun _ _ => id) fun _ _ => id
  exact WP.pure rfl

/-- With any store, a merge answers with what its event does to a day. -/
theorem merge_any (s : Settings) (user : User) (goal : Id) (e : UsageEvent) (w : World) :
    WP (merge s user goal e) w
      (fun r _ => ∃ d opened next next', Applied s d opened (e.fit d) next r next') fun _ _ => True := by
  rw [merge_eq]
  refine (any _ w).bind (fun slot w₁ _ => ?_) fun _ _ => id
  refine (recordEvent_any s slot user goal e w₁).bind (fun recorded w₂ applied => ?_) fun _ _ => id
  obtain ⟨p, r⟩ := recorded
  exact (settle_any slot user.id goal p r w₂).mono (fun r' _ same => same ▸ applied) fun _ _ => id

/-- An event that is to create an activity does, where the day accepts it. -/
theorem apply_create {starts ends : Instant} {d' : Day} (decided : s.decide? d e = some .create)
    (stretched : s.stretch? d e = some (starts, ends)) (opened : Bool) (w : World)
    (added : d.add ⟨⟨w.nextId⟩, starts, ends, e.device, e.app⟩ = .ok d') :
    (apply s d opened e).exec w =
      (.ok ⟨.created ⟨⟨w.nextId⟩, starts, ends, e.device, e.app⟩ opened, d'⟩,
        { w with nextId := w.nextId + 1 }) := by
  have steps : (apply s d opened e).exec w =
      (respecting (d.add ⟨⟨w.nextId⟩, starts, ends, e.device, e.app⟩) >>= fun d' =>
        pure ⟨.created ⟨⟨w.nextId⟩, starts, ends, e.device, e.app⟩ opened, d'⟩).exec
          { w with nextId := w.nextId + 1 } := by
    unfold apply
    rw [decided, stretched]
    rfl
  rw [steps, added]
  rfl

end Work

/-- Where an event that starts in a day is to create an activity, it does so
in every world: the day accepts one that suits the event. And a merge that
answers with a new activity has put it into a day, where it suits an event
that starts in that day. -/
theorem created_activity_suits {s : Settings} (valid : s.validate = .ok ()) (e : UsageEvent) :
    (∀ (d : Day) (opened : Bool) (w : World), e.StartsIn s d → s.decide? d (e.fit d) = some .create →
      ∃ a d' w', (Work.apply s d opened (e.fit d)).exec w = (.ok ⟨.created a opened, d'⟩, w') ∧
        d.add a = .ok d' ∧ a.Suits s e d) ∧
    (∀ (user : User) (goal : Id) (w w' : World) (r : Merged) (a : Activity) (opened : Bool),
      (Work.merge s user goal e).exec w = (.ok r, w') → r.outcome = .created a opened →
      ∃ d, d.add a = .ok r.day ∧ (e.StartsIn s d → a.Suits s e d)) := by
  have minimum := (Settings.minimum_of_validate valid).1
  constructor
  · intro d opened w startsIn decided
    obtain ⟨starts, ends, stretched⟩ := startsIn.exists_stretch? minimum
    let a : Activity := ⟨⟨w.nextId⟩, starts, ends, (e.fit d).device, (e.fit d).app⟩
    obtain ⟨inside, suits⟩ := suits_of_stretch? (a := a) valid startsIn stretched
    have added : d.add a = .ok { d with activities := Day.insert a d.activities } := if_pos inside
    exact ⟨a, _, _, Work.apply_create decided stretched opened w added, added, suits⟩
  · intro user goal w w' r a opened merged created
    obtain ⟨d, opened', next, next', applied⟩ := (Work.merge_any s user goal e w).of_exec merged
    cases applied with
    | create decided stretched added =>
      cases created
      exact ⟨d, added, fun startsIn => (suits_of_stretch? valid startsIn stretched).2⟩
    | extend => cases created
    | absorb => cases created

namespace Sample

/-- Settings that ask for five minutes of a new activity. -/
def patient : Settings := { minimumMillis := 300000 }

/-- A day without activities. -/
def unusedDay : Day where
  id := ⟨4⟩
  user := ⟨1⟩
  goal := goal
  date := tuesday
  zone := .utc
  starts := (event 0).starts
  ends := (event 1440).starts
  activities := []

/-- An event from 23:57 on is given the last five minutes of the day. -/
theorem moved_back_from_midnight : (event 1437).StartsIn patient unusedDay ∧
    (∃ a d' w', (Work.apply patient unusedDay true ((event 1437).fit unusedDay)).exec (World.fresh .epoch 0) =
        (.ok ⟨.created a true, d'⟩, w') ∧ unusedDay.add a = .ok d' ∧ a.Suits patient (event 1437) unusedDay) ∧
    ∃ (r : Merged) (w' : World) (a : Activity) (d : Day),
      (Work.merge patient (user .utc) goal (event 1437)).exec (World.fresh .epoch 0) = (.ok r, w') ∧
      r.outcome = .created a true ∧ a.starts = (event 1435).starts ∧ d.add a = .ok r.day := by
  have startsIn : (event 1437).StartsIn patient unusedDay :=
    ⟨by decide +kernel, by decide +kernel, by decide +kernel, by decide +kernel, by decide +kernel,
      by decide +kernel, by decide +kernel, by decide +kernel⟩
  obtain ⟨applies, merges⟩ := created_activity_suits (s := patient) (by decide +kernel) (event 1437)
  have opens : ((Work.merge patient (user .utc) goal (event 1437)).exec (World.fresh .epoch 0)).1.toOption.map
      (fun r => (r.outcome, r.outcome.activity.starts)) =
        some (.created ⟨⟨1⟩, (event 1435).starts, unusedDay.ends, none, none⟩ true, (event 1435).starts) := by
    decide +kernel
  rcases exec : (Work.merge patient (user .utc) goal (event 1437)).exec (World.fresh .epoch 0) with ⟨stop | r, w'⟩
  · rw [exec] at opens
    cases opens
  · rw [exec] at opens
    have created := congrArg Prod.fst (Option.some.inj opens)
    obtain ⟨d, added, -⟩ := merges (user .utc) goal _ w' r _ true exec created
    exact ⟨startsIn, applies unusedDay true _ startsIn rfl, r, w', _, d, rfl, created, rfl, added⟩

end Sample
end UsageDiary
