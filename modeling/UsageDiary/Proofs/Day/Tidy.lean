import UsageDiary.Proofs.Day.Labels
import UsageDiary.Proofs.Merge.Windows

/-!
# What the activities of a day look like

An activity of a day that an event was applied to was there before, was
created for the event, or is the last one of the event's device with its
end moved (`Applied.mem_cases`). So a day stays tidy (`Day.Tidy.applied`):
its activities lie in it in order of their starts, and each lasts the
minimum duration or fills the day.
-/

namespace UsageDiary

variable {s : Settings} {d : Day} {opened : Bool} {e : UsageEvent} {next next' : Nat} {r : Merged}

/-! ## Where an activity comes from -/

theorem Day.add_eq {a : Activity} {d' : Day} (h : d.add a = .ok d') :
    (d.starts ≤ a.starts ∧ a.ends ≤ d.ends) ∧ d' = { d with activities := insert a d.activities } := by
  unfold add at h
  split at h
  · next fits =>
    cases h
    simp only [contains, Bool.and_eq_true, decide_eq_true_eq] at fits
    exact ⟨⟨fits.1.2, fits.2⟩, rfl⟩
  · cases h

/-- An activity of the day after an event was there before, was created, or
is the last one of its device with its end moved to that of the event. -/
theorem Applied.mem_cases (h : Applied s d opened e next r next') (labelled : d.Labelled next)
    {a : Activity} (ha : a ∈ r.day.activities) :
    a ∈ d.activities ∨
    s.stretch? d e = some (a.starts, a.ends) ∧ (d.starts ≤ a.starts ∧ a.ends ≤ d.ends) ∧
      a.device = e.device ∧ r.outcome = .created a opened ∨
    ∃ last, d.last? e.device = some last ∧ s.decide? d e = some (.extend last.id) ∧
      e.ends ≤ d.ends ∧ a = { last with ends := e.ends } ∧ r.outcome = .extended a := by
  cases h with
  | create _ stretched added =>
    obtain ⟨within, rfl⟩ := Day.add_eq added
    rcases List.mem_cons.mp ((Day.perm_insert _ _).mem_iff.mp ha) with rfl | ha
    · exact .inr (.inl ⟨stretched, within, rfl, rfl⟩)
    · exact .inl ha
  | extend decided extended =>
    obtain ⟨last, hlast, rfl, longer⟩ := Settings.lt_ends_of_extend decided
    obtain ⟨hb, fits, rfl⟩ := Day.extend_eq labelled (Day.mem_of_last? hlast) longer extended
    obtain ⟨b, hmem, hba⟩ := List.mem_map.mp ha
    split at hba
    · exact .inr (.inr ⟨last, hlast, decided, fits, hba.symm, by rw [hb, hba]⟩)
    · exact .inl (hba ▸ hmem)
  | absorb => exact .inl ha

/-! ## The day that takes an event -/

/-- A day takes an event: it covers its start, and its activities bear ids
of their own. The event lies outside leap seconds. -/
structure Day.Takes (d : Day) (e : UsageEvent) (next : Nat) : Prop where
  bounded : d.Bounded
  covers : d.covers e.starts = true
  labelled : d.Labelled next
  starts : e.starts.Ordinary
  ends : e.ends.Ordinary

namespace Day.Takes

theorem starts_le_ends (h : d.Takes e next) : d.starts ≤ d.ends := by
  obtain ⟨after, before⟩ := Day.covers_def.mp h.covers
  exact le_trans after (le_of_lt before)

theorem ordinary_ends_fit (h : d.Takes e next) : (e.fit d).ends.Ordinary := by
  unfold UsageEvent.fit
  split
  · exact h.ends
  · exact h.bounded.ordinary_ends

theorem shaped (h : d.Takes e next) (timed : s.Timed) {starts ends : Instant}
    (stretched : s.stretch? d (e.fit d) = some (starts, ends)) : s.Shaped d (e.fit d) starts ends := by
  have within : (e.fit d).ends ≤ d.ends := by
    rw [UsageEvent.ends_fit]
    exact min_le_right _ _
  exact timed.shaped h.bounded (by rw [UsageEvent.starts_fit]; exact h.covers) within
    (by rw [UsageEvent.starts_fit]; exact h.starts) h.ordinary_ends_fit stretched

theorem decided (h : d.Takes e next) (timed : s.Timed) (ordinary : d.Ordinary) {decision : Decision}
    (hd : s.decide? d (e.fit d) = some decision) : s.Decided d (e.fit d) decision :=
  timed.decided ordinary (by rw [UsageEvent.starts_fit]; exact h.starts) h.ordinary_ends_fit hd

end Day.Takes

/-! ## Tidy days -/

/-- An activity lies in its day, bounded by instants outside leap seconds,
and lasts the minimum duration unless it fills the day. -/
structure Activity.Fills (s : Settings) (d : Day) (a : Activity) : Prop where
  ordinary : a.starts.Ordinary ∧ a.ends.Ordinary
  within : d.starts ≤ a.starts ∧ a.ends ≤ d.ends
  lasts : a.starts.nanos + s.minimum ≤ a.ends.nanos ∨ a.starts = d.starts ∧ a.ends = d.ends

/-- The activities of a day lie in it in order of their starts, and none of
them is too short. -/
structure Day.Tidy (s : Settings) (d : Day) : Prop where
  sorted : Day.Sorted d.activities
  fills : ∀ a ∈ d.activities, a.Fills s d

namespace Day.Tidy

theorem of_nil (h : d.activities = []) : d.Tidy s := by
  refine ⟨?_, ?_⟩ <;> rw [h]
  · exact .nil
  · simp

theorem ordinary (h : d.Tidy s) : d.Ordinary := fun a ha => (h.fills a ha).ordinary

end Day.Tidy

/-- An activity whose end moves forward in its day is long enough if it was. -/
theorem Activity.Fills.extend {a : Activity} (h : a.Fills s d) {ends : Instant} (ordinary : ends.Ordinary)
    (longer : a.ends < ends) (fits : ends ≤ d.ends) : ({ a with ends := ends } : Activity).Fills s d := by
  refine ⟨⟨h.ordinary.1, ordinary⟩, ⟨h.within.1, fits⟩, ?_⟩
  rcases h.lasts with lasts | ⟨starts, full⟩
  · rw [Instant.lt_iff_nanos h.ordinary.2 ordinary] at longer
    exact .inl (show a.starts.nanos + s.minimum ≤ ends.nanos by omega)
  · exact .inr ⟨starts, le_antisymm fits (full ▸ le_of_lt longer)⟩

theorem Day.Tidy.applied (h : d.Tidy s) (timed : s.Timed) (takes : d.Takes e next)
    (applied : Applied s d opened (e.fit d) next r next') : r.day.Tidy s := by
  have grows := applied.grows
  refine ⟨?_, fun a ha => ?_⟩
  · cases applied with
    | create _ _ added => exact (Day.add_eq added).2 ▸ Day.sorted_insert _ h.sorted
    | extend decided extended =>
      obtain ⟨last, hlast, rfl, longer⟩ := Settings.lt_ends_of_extend decided
      obtain ⟨-, -, rfl⟩ := Day.extend_eq takes.labelled (Day.mem_of_last? hlast) longer extended
      have starts {b : Activity} (hb : b ∈ d.activities) : (if b.id = last.id then
          { last with ends := (e.fit d).ends } else b).starts = b.starts := by
        split
        · next hid => rw [takes.labelled.eq_of_id hb (Day.mem_of_last? hlast) hid]
        · rfl
      refine List.pairwise_map.mpr (h.sorted.imp_of_mem fun ha hb hab => ?_)
      rw [starts ha, starts hb]
      exact hab
    | absorb => exact h.sorted
  · have fills : a.Fills s d := by
      rcases applied.mem_cases takes.labelled ha with ha | ⟨stretched, within, -⟩ |
        ⟨last, hlast, decided, fits, rfl, -⟩
      · exact h.fills a ha
      · have shaped := takes.shaped timed stretched
        exact ⟨⟨shaped.ordinary_starts, shaped.ordinary_ends⟩, within, shaped.lasts⟩
      · obtain ⟨_, hlast', -, longer⟩ := Settings.lt_ends_of_extend decided
        cases hlast.symm.trans hlast'
        exact (h.fills last (Day.mem_of_last? hlast)).extend takes.ordinary_ends_fit longer fits
    refine ⟨fills.ordinary, ?_, ?_⟩
    · rw [grows.starts, grows.ends]
      exact fills.within
    · rw [grows.starts, grows.ends]
      exact fills.lasts

end UsageDiary
