import UsageDiary.Proofs.Merge.Recording

/-!
# The windows of a merge

What an event does to its day, counted in nanoseconds. Settings that pass
the checks have windows that are lengths of time (`Settings.Timed`). Then
what is decided is a matter of how far the event starts and ends from the
end of the activity before it (`Settings.Timed.decided`), and the bounds of
a new activity lie around the event: it starts less than the minimum
duration before the event, and ends no further than that after the event's
start unless the event itself does (`Settings.Timed.shaped`).

All instants lie outside leap seconds here.
-/

namespace UsageDiary

/-- The activities of a day are bounded by instants outside leap seconds. -/
def Day.Ordinary (d : Day) : Prop := ∀ a ∈ d.activities, a.starts.Ordinary ∧ a.ends.Ordinary

namespace Settings

/-- The longest gap between two events of one activity, in nanoseconds. -/
def combine (s : Settings) : Int := Duration.ofMillis s.combineMillis

/-- The least growth of an activity that is kept, in nanoseconds. -/
def skip (s : Settings) : Int := Duration.ofMillis s.skipMillis

/-- The least length of a new activity, in nanoseconds. -/
def minimum (s : Settings) : Int := Duration.ofMillis s.minimumMillis

/-- The windows are lengths of time, in the order that the checks ask for. -/
structure Timed (s : Settings) : Prop where
  combine : s.combineInterval? = some s.combine
  skip : s.skipWindow? = some s.skip
  minimum : s.minimumDuration? = some s.minimum
  minimum_pos : 0 < s.minimum
  skip_nonneg : 0 ≤ s.skip
  skip_lt : s.skip < s.combine

/-- Settings that pass the checks ask for a length of time of new activities. -/
theorem minimum_of_validate {s : Settings} (h : s.validate = .ok ()) :
    s.minimumDuration? = some s.minimum ∧ 0 < s.minimum := by
  have minimum := minimum_of_checked h
  unfold dayMillis at minimum
  refine ⟨if_pos (by omega), ?_⟩
  simp only [Settings.minimum, Duration.ofMillis]
  omega

/-- Settings that pass the checks are timed, unless the window for combining
is too long for 63 bits. -/
theorem timed_of_validate {s : Settings} (h : s.validate = .ok ())
    (combine : s.combineMillis < 9223372036854775808) : s.Timed := by
  have skip := skip_lt_combine h
  obtain ⟨minimum, positive⟩ := minimum_of_validate h
  refine ⟨if_pos combine, if_pos (by omega), minimum, positive, ?_, ?_⟩
  all_goals
    simp only [Settings.skip, Settings.combine, Duration.ofMillis]
    omega

section Windows

variable (s : Settings) (d : Day) (e : UsageEvent)

/-- What is decided of an event, by the activity of its device that starts
last in the day. -/
inductive Decided : Decision → Prop where
  | first (h : d.last? e.device = none) : Decided .create
  | earlier {last : Activity} (h : d.last? e.device = some last) (before : e.starts < last.starts) :
      Decided .create
  | apart {last : Activity} (h : d.last? e.device = some last) (after : last.starts ≤ e.starts)
      (apart : last.ends.nanos + s.combine < e.starts.nanos) : Decided .create
  | extend {last : Activity} (h : d.last? e.device = some last) (after : last.starts ≤ e.starts)
      (near : e.starts.nanos ≤ last.ends.nanos + s.combine)
      (longer : last.ends.nanos < e.ends.nanos) (grows : last.ends.nanos + s.skip ≤ e.ends.nanos) :
      Decided (.extend last.id)
  | absorb {last : Activity} (h : d.last? e.device = some last) (after : last.starts ≤ e.starts)
      (near : e.starts.nanos ≤ last.ends.nanos + s.combine)
      (within : e.ends.nanos ≤ last.ends.nanos ∨ e.ends.nanos < last.ends.nanos + s.skip) :
      Decided (.absorb last)

/-- The bounds of a new activity for an event. It lasts the minimum duration
unless it fills its day. -/
structure Shaped (starts ends : Instant) : Prop where
  ordinary_starts : starts.Ordinary
  ordinary_ends : ends.Ordinary
  near : e.starts.nanos - s.minimum < starts.nanos
  starts_le : starts.nanos ≤ e.starts.nanos
  le_ends : e.ends.nanos ≤ ends.nanos
  ends_le : ends.nanos ≤ e.ends.nanos ∨ ends.nanos ≤ e.starts.nanos + s.minimum
  lasts : starts.nanos + s.minimum ≤ ends.nanos ∨ starts = d.starts ∧ ends = d.ends

end Windows

section Decided

variable {s : Settings} {d : Day} {e : UsageEvent}

/-- What extending an activity says of it. -/
theorem Decided.of_extend {id : Id} (h : s.Decided d e (.extend id)) :
    ∃ last, d.last? e.device = some last ∧ id = last.id ∧ last.starts ≤ e.starts ∧
      e.starts.nanos ≤ last.ends.nanos + s.combine ∧ last.ends.nanos < e.ends.nanos := by
  cases h with
  | extend hlast after near longer => exact ⟨_, hlast, rfl, after, near, longer⟩

/-- What absorbing an event says of the activity that absorbs it. -/
theorem Decided.of_absorb {last : Activity} (h : s.Decided d e (.absorb last)) :
    d.last? e.device = some last ∧ last.starts ≤ e.starts ∧
      (e.ends.nanos ≤ last.ends.nanos ∨ e.ends.nanos < last.ends.nanos + s.skip) := by
  cases h with
  | absorb hlast after _ within => exact ⟨hlast, after, within⟩

end Decided

namespace Timed

variable {s : Settings} {d : Day} {e : UsageEvent}

theorem measured (timed : s.Timed) : s.Measured :=
  ⟨⟨_, timed.combine⟩, ⟨_, timed.skip⟩, _, timed.minimum, Int.le_of_lt timed.minimum_pos⟩

theorem combine_pos (timed : s.Timed) : 0 < s.combine :=
  Int.lt_of_le_of_lt timed.skip_nonneg timed.skip_lt

theorem decided (timed : s.Timed) (ordinary : d.Ordinary) (starts : e.starts.Ordinary)
    (ends : e.ends.Ordinary) {decision : Decision} (h : s.decide? d e = some decision) :
    s.Decided d e decision := by
  unfold decide? at h
  cases hlast : d.last? e.device with
  | none =>
    rw [hlast] at h
    cases h
    exact .first hlast
  | some last =>
    have lastEnds := (ordinary last (Day.mem_of_last? hlast)).2
    simp only [hlast, timed.combine, timed.skip, Option.bind_eq_bind, Option.bind_some,
      Instant.since_of_ordinary starts lastEnds, Instant.since_of_ordinary ends lastEnds,
      Instant.lt_iff_nanos lastEnds ends] at h
    split at h
    · next before =>
      cases h
      exact .earlier hlast before
    · next notBefore =>
      have after : last.starts ≤ e.starts := le_of_not_gt notBefore
      split at h
      · next apart =>
        cases h
        have gap : s.combine < e.starts.nanos - last.ends.nanos := apart
        exact .apart hlast after (by omega)
      · next notApart =>
        have gap : ¬ s.combine < e.starts.nanos - last.ends.nanos := notApart
        split at h
        · split at h
          · next enough =>
            cases h
            have growth : s.skip ≤ e.ends.nanos - last.ends.nanos := enough
            exact .extend hlast after (by omega) (by omega) (by omega)
          · next little =>
            cases h
            have growth : ¬ s.skip ≤ e.ends.nanos - last.ends.nanos := little
            exact .absorb hlast after (by omega) (.inr (by omega))
        · cases h
          exact .absorb hlast after (by omega) (.inl (by omega))

end Timed

/-- The three ways to stretch an event: it is long enough, there is room for
the minimum duration after its start, or the activity is moved back from the
end of the day. -/
theorem stretch?_cases {s : Settings} {d : Day} {e : UsageEvent}
    (minimum : s.minimumDuration? = some s.minimum) (dayStarts : d.starts.Ordinary)
    (dayEnds : d.ends.Ordinary) (starts : e.starts.Ordinary) (ends : e.ends.Ordinary)
    {starts' ends' : Instant} (h : s.stretch? d e = some (starts', ends')) :
    (e.starts.nanos + s.minimum ≤ e.ends.nanos ∧ starts' = e.starts ∧ ends' = e.ends) ∨
    (e.ends.nanos < e.starts.nanos + s.minimum ∧ starts' = e.starts ∧ ends'.Ordinary ∧
      ends'.nanos = e.starts.nanos + s.minimum ∧ ends'.nanos ≤ d.ends.nanos) ∨
    (e.ends.nanos < e.starts.nanos + s.minimum ∧ d.ends.nanos < e.starts.nanos + s.minimum ∧
      ends' = d.ends ∧ starts'.Ordinary ∧
      (starts'.nanos = d.ends.nanos - s.minimum ∧ d.starts.nanos ≤ starts'.nanos ∨
        starts' = d.starts ∧ d.ends.nanos - s.minimum ≤ d.starts.nanos)) := by
  unfold stretch? at h
  simp only [minimum, Option.bind_eq_bind, Option.bind_some, Instant.since_of_ordinary ends starts] at h
  split at h
  · next short =>
    have length : e.ends.nanos - e.starts.nanos < s.minimum := short
    obtain ⟨later, hlater, h⟩ := Option.bind_eq_some_iff.mp h
    obtain ⟨ordinaryLater, laterNanos⟩ := Instant.shift?_of_ordinary starts hlater
    split at h
    · next crosses =>
      rw [Instant.lt_iff_nanos dayEnds ordinaryLater] at crosses
      obtain ⟨earlier, hearlier, h⟩ := Option.bind_eq_some_iff.mp h
      obtain ⟨ordinaryEarlier, earlierNanos⟩ := Instant.shift?_of_ordinary dayEnds hearlier
      cases h
      rcases le_total earlier d.starts with hle | hle
      · rw [max_eq_right hle]
        rw [Instant.le_iff_nanos ordinaryEarlier dayStarts] at hle
        exact .inr (.inr ⟨by omega, by omega, rfl, dayStarts, .inr ⟨rfl, by omega⟩⟩)
      · rw [max_eq_left hle]
        rw [Instant.le_iff_nanos dayStarts ordinaryEarlier] at hle
        exact .inr (.inr ⟨by omega, by omega, rfl, ordinaryEarlier, .inl ⟨by omega, hle⟩⟩)
    · next fits =>
      rw [Instant.lt_iff_nanos dayEnds ordinaryLater] at fits
      cases h
      exact .inr (.inl ⟨by omega, rfl, ordinaryLater, laterNanos, Int.not_lt.mp fits⟩)
  · next long =>
    cases h
    have length : ¬ e.ends.nanos - e.starts.nanos < s.minimum := long
    exact .inl ⟨by omega, rfl, rfl⟩

/-- A new activity moved back at the end of the day starts no earlier than
the day, but not before the minimum duration before the event: the event
starts before the day's end. -/
theorem Timed.shaped {s : Settings} {d : Day} {e : UsageEvent} (timed : s.Timed) (bounded : d.Bounded)
    (covers : d.covers e.starts = true) (within : e.ends ≤ d.ends) (starts : e.starts.Ordinary)
    (ends : e.ends.Ordinary) {starts' ends' : Instant} (h : s.stretch? d e = some (starts', ends')) :
    s.Shaped d e starts' ends' := by
  obtain ⟨dayStarts, dayEnds⟩ := Day.covers_def.mp covers
  have ordinaryEnds := bounded.ordinary_ends
  have ordinaryStarts := Zone.ordinary_of_startOfDay bounded.starts
  rw [Instant.le_iff_nanos ordinaryStarts starts] at dayStarts
  rw [Instant.lt_iff_nanos starts ordinaryEnds] at dayEnds
  rw [Instant.le_iff_nanos ends ordinaryEnds] at within
  have positive := timed.minimum_pos
  rcases stretch?_cases timed.minimum ordinaryStarts ordinaryEnds starts ends h with
    ⟨long, rfl, rfl⟩ | ⟨short, rfl, ordinary, hends, fits⟩ | ⟨short, crosses, rfl, ordinary, hstarts⟩
  · exact ⟨starts, ends, by omega, Int.le_refl _, Int.le_refl _, .inl (Int.le_refl _), .inl long⟩
  · exact ⟨starts, ordinary, by omega, Int.le_refl _, by omega, .inr (by omega), .inl (by omega)⟩
  · refine ⟨ordinary, ordinaryEnds, ?_, ?_, within, .inr (by omega), ?_⟩
    all_goals rcases hstarts with ⟨back, after⟩ | ⟨rfl, full⟩
    · omega
    · omega
    · omega
    · exact dayStarts
    · exact .inl (by omega)
    · exact .inr ⟨rfl, rfl⟩

end Settings
end UsageDiary
