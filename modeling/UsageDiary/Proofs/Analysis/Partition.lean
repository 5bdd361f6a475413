import Mathlib.Algebra.Ring.Int.Defs
import UsageDiary.Proofs.Analysis.Parts
import UsageDiary.Proofs.Run
import UsageDiary.Proofs.Zone.Regular

/-!
# Midnights part an event

In a regular zone an event is split into one part or two, and each instant
of the event lies in exactly one of them, unless its date lies strictly
between the dates that the event starts and ends at (`split_parted`). The
end of the first day and the start of the last one are worked out apart;
they bound the same dates by `Zone.Regular.lt_next_iff` and
`Zone.Regular.start_le_iff`.

Where no date lies in between, the parts last as long as the event. This is
so of the places of instants on the scale of nanoseconds, and of the lengths
that the service works out unless an event that is cut starts or ends within
a leap second: a length counts the leap second at one end by the times of
day of both (`Sample.leap_second_cut`).
-/

namespace UsageDiary

namespace UsageEvent

/-- An instant lies in an event, which is over at its end. -/
def Contains (e : UsageEvent) (t : Instant) : Prop := e.starts ≤ t ∧ t < e.ends

instance (e : UsageEvent) (t : Instant) : Decidable (e.Contains t) :=
  inferInstanceAs (Decidable (_ ∧ _))

/-- How long an event lasts. -/
def duration (e : UsageEvent) : Duration := e.ends.since e.starts

/-- An event lies between the bounds of the date that it starts at. -/
def InDay (zone : Zone) (e : UsageEvent) : Prop :=
  ∃ date, zone.localDate? e.starts = some date ∧
    (∀ start, zone.startOfDay date = .ok start → start ≤ e.starts) ∧
    ∀ next, zone.startOfNextDay date = .ok next → e.ends ≤ next

/-- An event starts and ends at these dates, and the days that bound it are
there: the first has an end, and the last a start. -/
structure Spans (zone : Zone) (e : UsageEvent) (first last : Date) : Prop where
  ordered : e.starts ≤ e.ends
  starts : zone.localDate? e.starts = some first
  ends : zone.localDate? e.ends = some last
  closes : ∃ next, zone.startOfNextDay first = .ok next
  opens : ∃ start, zone.startOfDay last = .ok start

/-- Parts of an event that spans these dates, one in the first day and
maybe one in the last. -/
structure Parted (zone : Zone) (e : UsageEvent) (first last : Date) (parts : List UsageEvent) : Prop where
  count : parts.length = 1 ∨ parts.length = 2
  labels : ∀ p ∈ parts, p.device = e.device ∧ p.app = e.app ∧ p.url = e.url
  ordered : ∀ p ∈ parts, p.starts ≤ p.ends
  daily : ∀ p ∈ parts, p.InDay zone
  inOrder : parts.Pairwise fun p q => p.ends ≤ q.starts
  covered : ∀ {t date}, zone.localDate? t = some date → e.Contains t →
    parts.countP (fun p => p.Contains t) = if first < date ∧ date < last then 0 else 1
  /-- The places of the ends add up wherever the dates are the same or in a row. -/
  places : last.day ≤ first.day + 1 →
    (parts.map fun p => p.ends.nanos - p.starts.nanos).sum = e.ends.nanos - e.starts.nanos
  /-- So do the lengths, unless the event is cut and a leap second bounds it. -/
  lengths : last.day ≤ first.day + 1 → parts = [e] ∨ e.starts.Ordinary ∧ e.ends.Ordinary →
    (parts.map duration).sum = e.duration

variable {zone : Zone} {e : UsageEvent} {first last : Date}

/-- An event that is over by the end of its first day is kept whole. -/
theorem Spans.parted_whole (spans : e.Spans zone first last) (regular : zone.Regular) {next : Instant}
    (ends : zone.startOfNextDay first = .ok next) (within : e.ends ≤ next) :
    e.Parted zone first last [e] where
  count := .inl rfl
  labels := by simp
  ordered := by simpa using spans.ordered
  daily p hp := by
    cases List.mem_singleton.mp hp
    refine ⟨first, spans.starts, fun start opens => (regular.first opens).2 spans.starts,
      fun next' ends' => ?_⟩
    cases ends.symm.trans ends'
    exact within
  inOrder := List.pairwise_singleton ..
  covered {t date} shows inside := by
    have le := (regular.lt_next_iff ends shows).mp (lt_of_lt_of_le inside.2 within)
    rw [if_neg fun between => not_lt_of_ge le between.1]
    simp [inside]
  places _ := by simp
  lengths _ _ := by simp

/-- The first part of an event that is cut. -/
theorem Spans.inDay_head (spans : e.Spans zone first last) (regular : zone.Regular) {next : Instant}
    (ends : zone.startOfNextDay first = .ok next) : ({ e with ends := next } : UsageEvent).InDay zone := by
  refine ⟨first, spans.starts, fun start opens => (regular.first opens).2 spans.starts, fun next' ends' => ?_⟩
  cases ends.symm.trans ends'
  exact le_refl next

/-- The last part of an event that is cut. -/
theorem Spans.inDay_tail (spans : e.Spans zone first last) (regular : zone.Regular) {start : Instant}
    (opens : zone.startOfDay last = .ok start) : ({ e with starts := start } : UsageEvent).InDay zone := by
  refine ⟨last, (regular.first opens).1, fun start' opens' => ?_, fun next ends => ?_⟩
  · cases opens.symm.trans opens'
    exact le_refl start
  · exact le_of_lt ((regular.lt_next_iff ends spans.ends).mpr (le_refl last))

section Past

variable {next start : Instant}

/-- Which part of an event that is cut an instant lies in, by its date. -/
theorem contains_iff (regular : zone.Regular)
    (ends : zone.startOfNextDay first = .ok next) (opens : zone.startOfDay last = .ok start)
    {t : Instant} {date : Date} (shows : zone.localDate? t = some date) (inside : e.Contains t) :
    (({ e with ends := next } : UsageEvent).Contains t ↔ date ≤ first) ∧
      (({ e with starts := start } : UsageEvent).Contains t ↔ last ≤ date) := by
  rw [← regular.lt_next_iff ends shows, ← regular.start_le_iff opens shows]
  exact ⟨and_iff_right inside.1, and_iff_left inside.2⟩

/-- An event that runs into its last day has a part there and one in its
first day. -/
theorem Spans.parted_both (spans : e.Spans zone first last) (regular : zone.Regular)
    (ends : zone.startOfNextDay first = .ok next) (past : next < e.ends)
    (opens : zone.startOfDay last = .ok start) (some : start < e.ends) :
    e.Parted zone first last [{ e with ends := next }, { e with starts := start }] := by
  have later : first < last := regular.lt_date ends spans.ends (le_of_lt past)
  have meet (near : last.day ≤ first.day + 1) : start = next :=
    Except.ok.inj (opens.symm.trans (Zone.startOfDay_of_next ends later near))
  have apart : next ≤ start := le_of_not_gt fun before =>
    not_le_of_gt later ((regular.lt_next_iff ends (regular.first opens).1).mp before)
  exact {
    count := .inr rfl
    labels := by simp
    ordered := by
      have inFirst : e.starts < next := (regular.lt_next_iff ends spans.starts).mpr (le_refl first)
      simpa using ⟨le_of_lt inFirst, le_of_lt some⟩
    daily := by
      simpa using ⟨spans.inDay_head regular ends, spans.inDay_tail regular opens⟩
    inOrder := by simpa using apart
    covered := fun {t date} shows inside => by
      obtain ⟨head, tail⟩ := contains_iff regular ends opens shows inside
      simp only [List.countP_cons, List.countP_nil, decide_eq_true_eq, head, tail]
      rcases le_or_gt date first with early | late
      · rw [if_neg (not_le_of_gt (lt_of_le_of_lt early later)), if_pos early,
          if_neg fun between => not_le_of_gt between.1 early]
      · rw [if_neg (not_le_of_gt late)]
        rcases le_or_gt last date with done | before
        · rw [if_pos done, if_neg fun between => not_le_of_gt between.2 done]
        · rw [if_neg (not_le_of_gt before), if_pos ⟨late, before⟩]
    places := fun near => by
      obtain rfl := meet near
      show start.nanos - e.starts.nanos + (e.ends.nanos - start.nanos + 0) = e.ends.nanos - e.starts.nanos
      omega
    lengths := fun near plain => by
      obtain ⟨starts, finish⟩ := plain.resolve_left (by simp)
      obtain rfl := meet near
      have bound := Zone.ordinary_of_startOfDay opens
      show start.since e.starts + (e.ends.since start + 0) = e.ends.since e.starts
      rw [Instant.since_of_ordinary bound starts, Instant.since_of_ordinary finish bound,
        Instant.since_of_ordinary finish starts]
      change (_ : Int) = _
      omega }

/-- An event that is over at the start of its last day has a part in its
first day only. The days do not meet then. -/
theorem Spans.parted_cut (spans : e.Spans zone first last) (regular : zone.Regular)
    (ends : zone.startOfNextDay first = .ok next) (past : next < e.ends)
    (opens : zone.startOfDay last = .ok start) (none : e.ends ≤ start) :
    e.Parted zone first last [{ e with ends := next }] := by
  have later : first < last := regular.lt_date ends spans.ends (le_of_lt past)
  have gap : ¬ last.day ≤ first.day + 1 := fun near => by
    cases opens.symm.trans (Zone.startOfDay_of_next ends later near)
    exact not_le_of_gt past none
  exact {
    count := .inl rfl
    labels := by simp
    ordered := by
      have inFirst : e.starts < next := (regular.lt_next_iff ends spans.starts).mpr (le_refl first)
      simpa using le_of_lt inFirst
    daily := by simpa using spans.inDay_head regular ends
    inOrder := List.pairwise_singleton ..
    covered := fun {t date} shows inside => by
      obtain ⟨head, -⟩ := contains_iff regular ends opens shows inside
      have before : date < last := lt_of_not_ge fun done => by
        have after := (regular.start_le_iff opens shows).mpr done
        exact not_le_of_gt inside.2 (le_trans none after)
      simp only [List.countP_cons, List.countP_nil, decide_eq_true_eq, head]
      rcases le_or_gt date first with early | late
      · rw [if_pos early, if_neg fun between => not_le_of_gt between.1 early]
      · rw [if_neg (not_le_of_gt late), if_pos ⟨late, before⟩]
    places := fun near => absurd near gap
    lengths := fun near => absurd near gap }

end Past

theorem Splits.parted {parts : List UsageEvent} (h : e.Splits zone parts) (spans : e.Spans zone first last)
    (regular : zone.Regular) : e.Parted zone first last parts := by
  cases h with
  | whole shows ends within =>
    cases shows.symm.trans spans.starts
    exact spans.parted_whole regular ends within
  | cut shows ends past showsEnd opens none =>
    cases shows.symm.trans spans.starts
    cases showsEnd.symm.trans spans.ends
    exact spans.parted_cut regular ends past opens none
  | both shows ends past showsEnd opens some =>
    cases shows.symm.trans spans.starts
    cases showsEnd.symm.trans spans.ends
    exact spans.parted_both regular ends past opens some

end UsageEvent

/-- An event is split if the days that bound it are there. -/
theorem Work.split_answers {zone : Zone} {e : UsageEvent} {first last : Date}
    (spans : e.Spans zone first last) (w : World) :
    ∃ parts w', (e.split zone).exec w = (.ok parts, w') := by
  obtain ⟨next, ends⟩ := spans.closes
  obtain ⟨start, opens⟩ := spans.opens
  have ends : WP (e.split zone) w (fun _ _ => True) fun _ _ => False := by
    unfold UsageEvent.split
    simp only [spans.starts, spans.ends, ends, opens, inRange, ofZone, pure_bind]
    refine WP.ite (fun _ => WP.pure trivial) fun _ => ?_
    have reports (r : LogEvent) : WP (report r) w (fun _ _ => True) fun _ _ => False := trivial
    refine (reports _).bind (fun _ w₁ _ => ?_) fun _ _ => id
    exact WP.ite (fun _ => WP.pure trivial) fun _ => WP.pure trivial
  obtain ⟨parts, w', exec, -⟩ := ends.exists_ok fun _ _ => id
  exact ⟨parts, w', exec⟩

/-- In a regular zone an event whose bounding days exist is split into one
part or two, in order and each inside one local day. An instant of the event
lies in exactly one of them, or in none if its date lies strictly between
the first and the last one. -/
theorem split_parted {zone : Zone} (regular : zone.Regular) {e : UsageEvent} {first last : Date}
    (spans : e.Spans zone first last) (w : World) :
    ∃ parts w', (e.split zone).exec w = (.ok parts, w') ∧ e.Parted zone first last parts := by
  obtain ⟨parts, w', exec⟩ := Work.split_answers spans w
  exact ⟨parts, w', exec, ((Work.split_ok zone e w).of_exec exec).parted spans regular⟩

namespace Sample

/-- The two minutes around midnight are split there. -/
theorem midnight_parted : ∃ parts w, ((event 1439).split .utc).exec (World.fresh .epoch 0) = (.ok parts, w) ∧
    parts.length = 2 ∧ (event 1439).Parted .utc tuesday wednesday parts := by
  have spans : (event 1439).Spans .utc tuesday wednesday :=
    ⟨by decide +kernel, by decide +kernel, by decide +kernel,
      exists_of_isOk (by decide +kernel), exists_of_isOk (by decide +kernel)⟩
  have count : ((event 1439).split .utc).exec (World.fresh .epoch 0) |>.1.toOption.map (·.length) = some 2 := by
    decide +kernel
  obtain ⟨parts, w, exec, parted⟩ := split_parted Zone.regular_utc spans (World.fresh .epoch 0)
  rw [exec] at count
  exact ⟨parts, w, exec, Option.some.inj count, parted⟩

/-- Usage from eight in the evening to the leap second after a minute past
noon. -/
def leapNight : UsageEvent where
  starts := (Instant.ofParts? 1736280000 0).getD .epoch
  ends := (Instant.ofParts? 1736337659 1000000000).getD .epoch
  device := none
  app := none
  url := none

/-- The parts of an event that ends in a leap second last a second longer
than the event. -/
theorem leap_second_cut : Zone.utc.Regular ∧ leapNight.Spans .utc tuesday wednesday ∧
    wednesday.day = tuesday.day + 1 ∧
    ∃ parts w, (leapNight.split .utc).exec (World.fresh .epoch 0) = (.ok parts, w) ∧
      (parts.map UsageEvent.duration).sum = .ofSeconds 57660 ∧ leapNight.duration = .ofSeconds 57659 := by
  have spans : leapNight.Spans .utc tuesday wednesday :=
    ⟨by decide +kernel, by decide +kernel, by decide +kernel,
      exists_of_isOk (by decide +kernel), exists_of_isOk (by decide +kernel)⟩
  have lasts : (leapNight.split .utc).exec (World.fresh .epoch 0) |>.1.toOption.map
      (fun parts => (parts.map UsageEvent.duration).sum) = some (.ofSeconds 57660) := by decide +kernel
  obtain ⟨parts, w, exec⟩ := Work.split_answers spans (World.fresh .epoch 0)
  rw [exec] at lasts
  exact ⟨Zone.regular_utc, spans, rfl, parts, w, exec, Option.some.inj lasts, by decide +kernel⟩

end Sample
end UsageDiary
