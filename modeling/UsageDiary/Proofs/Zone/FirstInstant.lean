import UsageDiary.Proofs.Zone.Regular
import UsageDiary.Zone.Pacific

/-!
# The first instant of a local date

The search for the start of a date tries the readings of the clock from
midnight on, a quarter of an hour apart, and takes the earliest instant of
the first one that is shown (`Zone.exists_earliest?_le`, `Zone.exists_quarter`).

Main statement: the start of a date shows the date, and it is the earliest
instant that does unless the clock of the zone sets in within the date before
it, at the first instant of the calendar or at a change of the offset
(`Zone.startOfDay_first_iff`). So it may where a change skips midnight: the
search then passes over the minutes up to the next quarter of an hour
(`Sample.late_after_skipped_minutes`).
-/

namespace UsageDiary

/-- The first instant of the calendar. -/
def Instant.first : Instant := ⟨-8334601228800, 0, by decide, by decide, Instant.epoch.nano_lt⟩

theorem Instant.first_le (t : Instant) : first ≤ t := by
  have := t.lower
  simp only [le_def, first]
  omega

namespace Zone

/-- What the data of a zone keeps to: its changes come in order, none of
them before the calendar starts, and its first offset is less than a day. -/
structure Charted (z : Zone) : Prop where
  sorted : z.Sorted
  after : ∀ c ∈ z.changes, Instant.first.second < c.second
  base_lt : z.base < secondsPerDay

/-- An instant from which the clock of the zone runs on evenly: the first
of the calendar, or that of a change. -/
def Seam (z : Zone) (t : Instant) : Prop :=
  t = Instant.first ∨ t.nano = 0 ∧ ∃ c ∈ z.changes, c.second = t.second

/-! ## Readings of the clock -/

theorem mem_showsFrom {since? : Option Int} {offset clock second : Int}
    {changes : List OffsetChange} (after : since?.all (· ≤ second) = true)
    (h : offsetFrom offset changes second = clock - second) :
    second ∈ showsFrom since? offset clock changes := by
  induction changes generalizing since? offset with
  | nil =>
    rw [offsetFrom] at h
    have at_second : clock - offset = second := by omega
    simp [showsFrom, at_second, after]
  | cons c rest ih =>
    rw [offsetFrom] at h
    rw [showsFrom, List.mem_append]
    split at h
    · next before =>
      have at_second : clock - offset = second := by omega
      left
      simp [at_second, after, before]
    · next behind =>
      right
      exact ih (by simpa using Int.not_lt.mp behind) h

/-- The seconds found for a reading of the clock are in order. -/
theorem pairwise_showsFrom {since? : Option Int} {offset clock : Int} {changes : List OffsetChange}
    (sorted : changes.Pairwise fun a b => a.second < b.second) :
    (showsFrom since? offset clock changes).Pairwise (· < ·) := by
  induction changes generalizing since? offset with
  | nil =>
    rw [showsFrom]
    split <;> simp
  | cons c rest ih =>
    rw [List.pairwise_cons] at sorted
    rw [showsFrom, List.pairwise_append]
    refine ⟨by split <;> simp, ih sorted.2, fun earlier he later hl => ?_⟩
    have before : earlier < c.second := by
      split at he
      · next h =>
        rw [List.mem_singleton] at he
        simp only [Bool.and_eq_true, decide_eq_true_eq] at h
        omega
      · simp at he
    have behind := (offsetFrom_showsFrom sorted.2 (by simpa using sorted.1) hl).1
    simp only [Option.all_some, decide_eq_true_eq] at behind
    omega

variable {z : Zone} {clock second : Int} {d : Date} {s t : Instant}

/-- Every second at which the clock shows a reading is found for it. -/
theorem mem_shows_of_reading (h : second + z.offsetAt second = clock) : second ∈ z.shows clock := by
  refine mem_showsFrom rfl ?_
  show z.offsetAt second = clock - second
  omega

/-- The earliest second found for a reading is not after one that shows it. -/
theorem exists_head_le (sorted : z.Sorted) (h : second + z.offsetAt second = clock) :
    ∃ head, (z.shows clock).head? = some head ∧ head + z.offsetAt head = clock ∧ head ≤ second := by
  have mem := mem_shows_of_reading h
  have ascending : (z.shows clock).Pairwise (· < ·) := pairwise_showsFrom sorted
  cases hs : z.shows clock with
  | nil => rw [hs] at mem; cases mem
  | cons head rest =>
    have shown : head ∈ z.shows clock := by rw [hs]; exact List.mem_cons_self
    refine ⟨head, rfl, mem_shows sorted shown, ?_⟩
    rw [hs] at mem ascending
    rcases List.mem_cons.mp mem with same | behind
    · exact Int.le_of_eq same.symm
    · exact Int.le_of_lt ((List.pairwise_cons.mp ascending).1 second behind)

/-- A reading that the clock shows at a second has an earliest instant, not
after that second, unless the clock also shows it before the calendar starts. -/
theorem exists_earliest?_le (sorted : z.Sorted) (h : second + z.offsetAt second = clock)
    (upper : second ≤ 8210266876799) :
    (∃ s, z.earliest? clock = some s ∧ s.second ≤ second) ∨
      ∃ early, early < Instant.first.second ∧ early + z.offsetAt early = clock := by
  obtain ⟨head, hhead, shown, le⟩ := exists_head_le sorted h
  by_cases early : head < Instant.first.second
  · exact .inr ⟨head, early, shown⟩
  · have inside : (-8334601228800 ≤ head ∧ head ≤ 8210266876799) ∧ 0 < 2000000000 :=
      ⟨⟨Int.not_lt.mp early, Int.le_trans le upper⟩, by decide⟩
    refine .inl ⟨⟨head, 0, inside.1.1, inside.1.2, inside.2⟩, ?_, le⟩
    rw [earliest?, hhead]
    exact dif_pos inside

theorem earliest?_eq_some (sorted : z.Sorted) (h : z.earliest? clock = some s) :
    s.nano = 0 ∧ s.second + z.offsetAt s.second = clock := by
  obtain ⟨head, hh, hs⟩ := Option.bind_eq_some_iff.mp h
  obtain ⟨hsecond, hnano⟩ := Instant.ofParts?_eq_some hs
  rw [hsecond]
  exact ⟨hnano, mem_shows sorted (List.mem_of_mem_head? hh)⟩

theorem offsetFrom_of_lt {offset : Int} {changes : List OffsetChange}
    (before : ∀ c ∈ changes, second < c.second) : offsetFrom offset changes second = offset := by
  cases changes with
  | nil => rfl
  | cons c rest => rw [offsetFrom, if_pos (before c List.mem_cons_self)]

/-- Of two seconds, the earlier one has the offset of the later one, or a
change between them sets it. -/
theorem offsetFrom_eq_or_change {earlier later : Int} (offset : Int) (changes : List OffsetChange)
    (le : earlier ≤ later) :
    offsetFrom offset changes earlier = offsetFrom offset changes later ∨
      ∃ c ∈ changes, earlier < c.second ∧ c.second ≤ later ∧
        offsetFrom offset changes c.second = offsetFrom offset changes later := by
  induction changes generalizing earlier offset with
  | nil => left; rfl
  | cons c rest ih =>
    simp only [offsetFrom]
    by_cases behind : later < c.second
    · left
      rw [if_pos behind, if_pos (by omega)]
    rw [if_neg behind]
    by_cases before : earlier < c.second
    -- The change may set the offset of the later second itself; if not, one after it does.
    · rcases ih c.offset (Int.not_lt.mp behind) with same | ⟨c', mem, after, upto, same⟩
      · exact .inr ⟨c, List.mem_cons_self, before, by omega, by rw [if_neg (by omega), same]⟩
      · exact .inr ⟨c', List.mem_cons_of_mem _ mem, by omega, upto, by rw [if_neg (by omega), same]⟩
    · rw [if_neg before]
      rcases ih c.offset le with same | ⟨c', mem, after, upto, same⟩
      · exact .inl same
      · exact .inr ⟨c', List.mem_cons_of_mem _ mem, after, upto, by rw [if_neg (by omega), same]⟩

theorem localDate?_eq_some_iff :
    z.localDate? t = some d ↔ d.day * secondsPerDay ≤ t.second + z.offsetAt t.second ∧
      t.second + z.offsetAt t.second < d.day * secondsPerDay + secondsPerDay := by
  simp only [secondsPerDay]
  constructor
  · intro h
    have := Date.day_of_ofDay? h
    simp only [secondsPerDay] at this
    omega
  · rintro ⟨after, before⟩
    have same : (t.second + z.offsetAt t.second) / secondsPerDay = d.day := by
      simp only [secondsPerDay]
      omega
    rw [localDate?, same, Date.ofDay?_day]

/-! ## The start of a date -/

theorem localDate?_of_startOfDay (sorted : z.Sorted) (h : z.startOfDay d = .ok s) :
    z.localDate? s = some d := by
  obtain ⟨quarter, hq, he, -⟩ := exists_quarter h
  have := (earliest?_eq_some sorted he).2
  simp only [secondsPerDay, latestStart] at this hq
  rw [localDate?_eq_some_iff]
  simp only [secondsPerDay]
  omega

/-- The start of a date is the earliest instant of the first reading that
has one, so if that is midnight it is the start. -/
theorem startOfDay_of_midnight (h : z.startOfDay d = .ok s)
    (midnight : z.earliest? (d.day * secondsPerDay) = some t) : s = t := by
  obtain ⟨quarter, -, he, hnone⟩ := exists_quarter h
  rw [← Int.add_zero (d.day * secondsPerDay)] at midnight
  rcases Nat.eq_zero_or_pos quarter with hzero | hpos
  · subst hzero
    exact Option.some.inj (he.symm.trans midnight)
  · cases (hnone 0 hpos).symm.trans midnight

theorem Charted.offsetAt_of_le (charted : z.Charted) (h : second ≤ Instant.first.second) :
    z.offsetAt second = z.base :=
  offsetFrom_of_lt fun c mem => Int.lt_of_le_of_lt h (charted.after c mem)

/-- If the clock shows the midnight of a date before the calendar starts, the
date begins with the calendar. -/
theorem localDate?_first (charted : z.Charted) (h : second < Instant.first.second)
    (midnight : second + z.offsetAt second = d.day * secondsPerDay) :
    z.localDate? Instant.first = some d := by
  rw [charted.offsetAt_of_le (Int.le_of_lt h)] at midnight
  have hlower := d.lower
  have hbase := charted.base_lt
  rw [localDate?_eq_some_iff, charted.offsetAt_of_le (Int.le_refl _)]
  simp only [Instant.first, secondsPerDay] at *
  omega

/-- If the clock runs evenly from the midnight of a date to an instant that
shows the date, the date starts by then, unless its midnight lies before the
calendar. -/
theorem startOfDay_le_of_even (charted : z.Charted) (h : z.startOfDay d = .ok s)
    (ht : z.localDate? t = some d)
    (even : z.offsetAt (d.day * secondsPerDay - z.offsetAt t.second) = z.offsetAt t.second) :
    s ≤ t ∨ z.localDate? Instant.first = some d := by
  have after := (localDate?_eq_some_iff.mp ht).1
  have midnight : d.day * secondsPerDay - z.offsetAt t.second +
      z.offsetAt (d.day * secondsPerDay - z.offsetAt t.second) = d.day * secondsPerDay := by
    omega
  have hupper := t.upper
  rcases exists_earliest?_le charted.sorted midnight (by omega) with ⟨u, hu, le⟩ | ⟨early, hlt, shown⟩
  · left
    have hnano := (earliest?_eq_some charted.sorted hu).1
    rw [startOfDay_of_midnight h hu, Instant.le_def]
    omega
  · exact .inr (localDate?_first charted hlt shown)

/-- The start of a date is not after an instant that shows the date, if it
is not after a seam that does. -/
theorem startOfDay_le (charted : z.Charted) (h : z.startOfDay d = .ok s)
    (seams : ∀ t, z.Seam t → z.localDate? t = some d → s ≤ t) (ht : z.localDate? t = some d) :
    s ≤ t := by
  obtain ⟨after, before⟩ := localDate?_eq_some_iff.mp ht
  -- Midnight by the offset at `t`: either the clock ran evenly from there, or it set in since.
  have le : d.day * secondsPerDay - z.offsetAt t.second ≤ t.second := by omega
  rcases offsetFrom_eq_or_change z.base z.changes le with even | ⟨c, mem, since, upto, same⟩
  · rcases startOfDay_le_of_even charted h ht even with hs | hfirst
    · exact hs
    · exact le_trans (seams _ (.inl rfl) hfirst) (Instant.first_le t)
  · have hfirst := charted.after c mem
    have hupper := t.upper
    let start : Instant := ⟨c.second, 0, Int.le_of_lt hfirst, by omega, by decide⟩
    have shows : z.localDate? start = some d := by
      have : z.offsetAt start.second = z.offsetAt t.second := same
      rw [localDate?_eq_some_iff, this]
      simp only [start]
      omega
    refine le_trans (seams start (.inr ⟨rfl, c, mem, rfl⟩) shows) ?_
    simp only [Instant.le_def, start]
    omega

/-- The start of a date shows the date, and it is the earliest instant that
does just if it is not after a seam that does. -/
theorem startOfDay_first_iff (charted : z.Charted) (h : z.startOfDay d = .ok s) :
    z.localDate? s = some d ∧
      ((∀ t, z.localDate? t = some d → s ≤ t) ↔
        ∀ t, z.Seam t → z.localDate? t = some d → s ≤ t) :=
  ⟨localDate?_of_startOfDay charted.sorted h,
    fun first t _ => first t, fun seams _ => startOfDay_le charted h seams⟩

end Zone

namespace Sample

/-- The dates 1979-10-01, on which the clock of Kiritimati skipped from
midnight to 00:40, and 1995-01-01, which followed a day skipped there. -/
def october : Date := (Date.ofDay? 3560).getD .epoch

def newYear : Date := (Date.ofDay? 9131).getD .epoch

/-- The seconds of the two changes of that clock. -/
def skippedMinutes : Instant := (Instant.ofParts? 307622400 0).getD .epoch

def skippedDay : Instant := (Instant.ofParts? 788868000 0).getD .epoch

/-- The date after the skipped day starts at its first instant. -/
theorem first_after_skipped_day : Zone.kiritimati.Charted ∧
    Zone.kiritimati.startOfDay newYear = .ok skippedDay ∧
    Zone.kiritimati.localDate? skippedDay = some newYear ∧
    ∀ t, Zone.kiritimati.localDate? t = some newYear → skippedDay ≤ t := by
  have charted : Zone.kiritimati.Charted := ⟨by decide, by decide, by decide⟩
  have starts : Zone.kiritimati.startOfDay newYear = .ok skippedDay := rfl
  obtain ⟨shows, first⟩ := Zone.startOfDay_first_iff charted starts
  refine ⟨charted, starts, shows, first.mpr fun t seam ht => ?_⟩
  have after : newYear.day * 86400 ≤ t.second + Zone.kiritimati.offsetAt t.second :=
    (Zone.localDate?_eq_some_iff.mp ht).1
  rcases seam with rfl | ⟨-, c, mem, same⟩
  · exact absurd after (by decide +kernel)
  · simp only [Zone.kiritimati, List.mem_cons, List.not_mem_nil, or_false] at mem
    rcases mem with rfl | rfl
    · rw [← same] at after
      exact absurd after (by decide +kernel)
    · exact Instant.le_def.mpr (.inr ⟨same, Nat.zero_le _⟩)

/-- The date of the skipped minutes starts at a quarter to one, five minutes
after the clock first shows it. -/
theorem late_after_skipped_minutes :
    Zone.kiritimati.localDate? skippedMinutes = some october ∧
    ∃ s, Zone.kiritimati.startOfDay october = .ok s ∧ skippedMinutes < s ∧
      s.since skippedMinutes = .ofMinutes 5 :=
  ⟨by decide +kernel, (Instant.ofParts? 307622700 0).getD .epoch, rfl, by decide +kernel,
    by decide +kernel⟩

end Sample
end UsageDiary
