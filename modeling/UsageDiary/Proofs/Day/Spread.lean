import Mathlib.Algebra.BigOperators.Ring.Finset
import Mathlib.Algebra.Order.BigOperators.Group.List
import Mathlib.Algebra.Order.Ring.Int
import Mathlib.Algebra.Order.Ring.Nat
import UsageDiary.Proofs.Zone.Regular
import UsageDiary.Spread

/-!
# The quarters of a day

The quarters of an hour of a day are the stretches between its cuts
(`Day.cut`): a quarter of an hour apart, none past the end of the day, and
the last one there. So quarters past the end of a short day have no length,
and the last one of a long day reaches to its end.

Main statement: the spread of a day of any length parts it in its quarters
(`Day.spreads_of_plain`). An entry counts the seconds of the activities
between two cuts (`Day.getElem?_spread`). Where all activities keep to whole
minutes, these are the minutes that their parts before the cuts grow by, so
the sum of the entries telescopes to the minutes of the day
(`Day.sum_spread`). Activities that do not overlap leave room for each other:
those beside an activity lie before it or behind it (`Day.sum_within_le`).

All lengths here are in nanoseconds, and all instants lie outside leap
seconds.
-/

namespace UsageDiary

namespace Instant

variable {a b : Instant}

theorem ordinary_min (ha : a.Ordinary) (hb : b.Ordinary) : (min a b).Ordinary := by
  rcases le_total a b with h | h
  · rwa [min_eq_left h]
  · rwa [min_eq_right h]

theorem ordinary_max (ha : a.Ordinary) (hb : b.Ordinary) : (max a b).Ordinary := by
  rcases le_total a b with h | h
  · rwa [max_eq_right h]
  · rwa [max_eq_left h]

theorem nanos_min (ha : a.Ordinary) (hb : b.Ordinary) : (min a b).nanos = min a.nanos b.nanos := by
  rcases le_total a b with h | h
  · rw [min_eq_left h]
    rw [le_iff_nanos ha hb] at h
    omega
  · rw [min_eq_right h]
    rw [le_iff_nanos hb ha] at h
    omega

theorem nanos_max (ha : a.Ordinary) (hb : b.Ordinary) : (max a b).nanos = max a.nanos b.nanos := by
  rcases le_total a b with h | h
  · rw [max_eq_right h]
    rw [le_iff_nanos ha hb] at h
    omega
  · rw [max_eq_left h]
    rw [le_iff_nanos hb ha] at h
    omega

end Instant

namespace Activity

/-- The nanoseconds of an activity between two times. -/
def within (a : Activity) (lo hi : Int) : Int :=
  max 0 (min a.ends.nanos hi - max a.starts.nanos lo)

/-- The whole seconds of an activity between two times. -/
def secondsWithin (a : Activity) (lo hi : Int) : Nat := (a.within lo hi / nanosPerSecond).toNat

/-- Where the part of an activity before a time ends. -/
def upTo (a : Activity) (x : Int) : Int := max a.starts.nanos (min a.ends.nanos x)

theorem within_eq {a : Activity} {lo hi : Int} (ordered : a.starts.nanos ≤ a.ends.nanos)
    (le : lo ≤ hi) : a.within lo hi = a.upTo hi - a.upTo lo := by
  unfold within upTo
  omega

/-- No instant lies in both activities. -/
def Disjoint (a b : Activity) : Prop :=
  ∀ t : Instant, ¬ ((a.starts ≤ t ∧ t < a.ends) ∧ b.starts ≤ t ∧ t < b.ends)

/-- Of two disjoint activities one ends before the other one starts, if they
last at all. -/
theorem Disjoint.min_le_max {a b : Activity} (h : a.Disjoint b)
    (ha : a.starts.Ordinary ∧ a.ends.Ordinary) (hb : b.starts.Ordinary ∧ b.ends.Ordinary) :
    min a.ends.nanos b.ends.nanos ≤ max a.starts.nanos b.starts.nanos := by
  by_contra overlap
  have ordinary := Instant.ordinary_max ha.1 hb.1
  refine h (max a.starts b.starts) ⟨⟨?_, ?_⟩, ?_, ?_⟩
  · exact (Instant.le_iff_nanos ha.1 ordinary).mpr (by rw [Instant.nanos_max ha.1 hb.1]; omega)
  · exact (Instant.lt_iff_nanos ordinary ha.2).mpr (by rw [Instant.nanos_max ha.1 hb.1]; omega)
  · exact (Instant.le_iff_nanos hb.1 ordinary).mpr (by rw [Instant.nanos_max ha.1 hb.1]; omega)
  · exact (Instant.lt_iff_nanos ordinary hb.2).mpr (by rw [Instant.nanos_max ha.1 hb.1]; omega)

/-- The shared seconds of an activity with a stretch of time are those within
its bounds. -/
theorem sharedSeconds_eq {a : Activity} {starts ends : Instant} (ha : a.starts.Ordinary)
    (ha' : a.ends.Ordinary) (hs : starts.Ordinary) (he : ends.Ordinary) :
    Day.sharedSeconds a starts ends = a.secondsWithin starts.nanos ends.nanos := by
  have hsince := Instant.since_of_ordinary (Instant.ordinary_min ha' he) (Instant.ordinary_max ha hs)
  rw [Instant.nanos_min ha' he, Instant.nanos_max ha hs] at hsince
  unfold Day.sharedSeconds secondsWithin within
  rw [hsince]
  unfold Duration.toSeconds nanosPerSecond
  generalize min a.ends.nanos ends.nanos - max a.starts.nanos starts.nanos = length
  rcases Int.le_total 0 length with h | h
  · rw [Int.tdiv_eq_ediv_of_nonneg h]
    omega
  · have hneg : Int.tdiv (-length) 1000000000 = -Int.tdiv length 1000000000 := Int.neg_tdiv ..
    rw [Int.tdiv_eq_ediv_of_nonneg (by omega)] at hneg
    omega

end Activity

namespace Day

/-- The cuts of a day, in nanoseconds since 1970: a quarter of an hour apart
from its start on, none past its end, and the last one there. -/
def cut (d : Day) (i : Nat) : Int :=
  if i < quarters then min (d.starts.nanos + Duration.ofMinutes (15 * i)) d.ends.nanos
  else d.ends.nanos

/-- A day of positive length, outside every leap second, with its activities
inside. -/
structure Plain (d : Day) : Prop where
  positive : d.starts < d.ends
  starts : d.starts.Ordinary
  ends : d.ends.Ordinary
  inside : ∀ a ∈ d.activities, d.contains a.starts a.ends = true
  ordinary : ∀ a ∈ d.activities, a.starts.Ordinary ∧ a.ends.Ordinary

variable {d : Day}

theorem Plain.nanos_lt (plain : d.Plain) : d.starts.nanos < d.ends.nanos :=
  (Instant.lt_iff_nanos plain.starts plain.ends).mp plain.positive

theorem Plain.activity (plain : d.Plain) {a : Activity} (ha : a ∈ d.activities) :
    d.starts.nanos ≤ a.starts.nanos ∧ a.starts.nanos ≤ a.ends.nanos ∧ a.ends.nanos ≤ d.ends.nanos := by
  obtain ⟨starts, ends⟩ := plain.ordinary a ha
  have inside := plain.inside a ha
  simp only [contains, Bool.and_eq_true, decide_eq_true_eq, Instant.le_iff_nanos starts ends,
    Instant.le_iff_nanos plain.starts starts, Instant.le_iff_nanos ends plain.ends] at inside
  omega

theorem cut_of_lt {i : Nat} (h : i < quarters) :
    d.cut i = min (d.starts.nanos + 900000000000 * i) d.ends.nanos := by
  rw [cut, if_pos h]
  simp only [Duration.ofMinutes, Duration.ofSeconds, nanosPerSecond]
  omega

theorem cut_quarters (d : Day) : d.cut quarters = d.ends.nanos := if_neg (Nat.lt_irrefl _)

theorem cut_zero (plain : d.Plain) : d.cut 0 = d.starts.nanos := by
  have := plain.nanos_lt
  rw [cut_of_lt (by decide)]
  omega

theorem cut_le_ends (d : Day) (i : Nat) : d.cut i ≤ d.ends.nanos := by
  rcases Nat.lt_or_ge i quarters with h | h
  · rw [cut_of_lt h]
    omega
  · rw [cut, if_neg (by omega)]

theorem cut_le_succ (d : Day) (i : Nat) : d.cut i ≤ d.cut (i + 1) := by
  rcases Nat.lt_or_ge (i + 1) quarters with h | h
  · rw [cut_of_lt h, cut_of_lt (by omega)]
    omega
  · rw [show d.cut (i + 1) = d.ends.nanos from if_neg (by omega)]
    exact d.cut_le_ends i

theorem cut_mono (d : Day) {i j : Nat} (h : i ≤ j) : d.cut i ≤ d.cut j := by
  induction h with
  | refl => exact Int.le_refl _
  | step _ ih => exact Int.le_trans ih (d.cut_le_succ _)

/-- A time from the first value of a rising sequence to before a later one
lies between two neighbouring values, and only there. -/
theorem existsUnique_between {c : Nat → Int} (rising : ∀ {i j}, i ≤ j → c i ≤ c j) {n : Nat} {x : Int} :
    c 0 ≤ x ∧ x < c n ↔ ∃! i, i < n ∧ c i ≤ x ∧ x < c (i + 1) := by
  constructor
  · rintro ⟨after, before⟩
    have exists_between : ∃ i, i < n ∧ c i ≤ x ∧ x < c (i + 1) := by
      induction n with
      | zero => omega
      | succ n ih =>
        by_cases h : x < c n
        · obtain ⟨i, hi, between⟩ := ih h
          exact ⟨i, by omega, between⟩
        · exact ⟨n, by omega, by omega, before⟩
    obtain ⟨i, hi, hle, hlt⟩ := exists_between
    refine ⟨i, ⟨hi, hle, hlt⟩, fun j ⟨_, hle', hlt'⟩ => ?_⟩
    by_contra different
    rcases Nat.lt_or_gt_of_ne different with h | h
    · have := rising (show j + 1 ≤ i from h)
      omega
    · have := rising (show i + 1 ≤ j from h)
      omega
  · rintro ⟨i, ⟨hi, hle, hlt⟩, -⟩
    have := rising (Nat.zero_le i)
    have := rising (show i + 1 ≤ n from hi)
    omega

/-- An instant lies in a day if it lies in one of its quarters, and then in
that one alone. -/
theorem covers_iff_existsUnique_cut (plain : d.Plain) {t : Instant} (ht : t.Ordinary) :
    d.covers t = true ↔ ∃! i, i < quarters ∧ d.cut i ≤ t.nanos ∧ t.nanos < d.cut (i + 1) := by
  rw [covers_def, Instant.le_iff_nanos plain.starts ht, Instant.lt_iff_nanos ht plain.ends,
    ← cut_zero plain, ← cut_quarters]
  exact existsUnique_between d.cut_mono

/-! ## The seconds of a quarter -/

/-- An instant moved on by quarters of an hour, up to the end of the day. Where
the calendar has no instant so late, the day ends before. -/
theorem getD_shift_spec (plain : d.Plain) {t : Instant} (ht : t.Ordinary) (m : Nat) :
    let moved := (t.shift? (Duration.ofMinutes (15 * m))).getD d.ends
    moved.Ordinary ∧ min moved.nanos d.ends.nanos = min (t.nanos + 900000000000 * m) d.ends.nanos := by
  have length : Duration.ofMinutes (15 * m) = 900000000000 * m := by
    show (15 * (m : Int) * 60 * 1000000000 : Int) = 900000000000 * m
    omega
  rw [length]
  cases h : t.shift? (900000000000 * m) with
  | none =>
    have past : d.ends.nanos < t.nanos + 900000000000 * m := by
      by_contra inside
      have := Instant.isSome_shift? ht ht plain.ends (by omega) (Int.not_lt.mp inside)
      rw [h] at this
      cases this
    refine ⟨plain.ends, ?_⟩
    show min d.ends.nanos d.ends.nanos = min (t.nanos + 900000000000 * m) d.ends.nanos
    omega
  | some moved =>
    obtain ⟨ordinary, hn⟩ := Instant.shift?_of_ordinary ht h
    exact ⟨ordinary, show min moved.nanos _ = _ by rw [hn]⟩

/-- A quarter of an hour starts at its cut, unless it lies past the end of the
day. -/
theorem quarterStart_spec (plain : d.Plain) {i : Nat} (hi : i < quarters) :
    (d.quarterStart i).Ordinary ∧
      (d.ends ≤ d.quarterStart i ∧ d.cut i = d.ends.nanos ∨
        d.quarterStart i < d.ends ∧ (d.quarterStart i).nanos = d.cut i ∧
          d.cut i = d.starts.nanos + 900000000000 * i) := by
  obtain ⟨ordinary, hn⟩ : (d.quarterStart i).Ordinary ∧ min (d.quarterStart i).nanos d.ends.nanos = _ :=
    getD_shift_spec plain plain.starts i
  refine ⟨ordinary, ?_⟩
  rw [cut_of_lt hi, Instant.le_iff_nanos plain.ends ordinary, Instant.lt_iff_nanos ordinary plain.ends]
  omega

/-- A quarter of an hour that starts before the end of the day ends at the
next cut. -/
theorem quarterEnd_spec (plain : d.Plain) {i : Nat} (hi : i < quarters)
    (h : d.quarterStart i < d.ends) :
    (d.quarterEnd i).Ordinary ∧ (d.quarterEnd i).nanos = d.cut (i + 1) ∧ d.cut i < d.cut (i + 1) := by
  obtain ⟨ordinary, ⟨past, -⟩ | ⟨before, hstart, hcut⟩⟩ := quarterStart_spec plain hi
  · exact absurd h (not_lt_of_ge past)
  rw [Instant.lt_iff_nanos ordinary plain.ends] at before
  unfold quarterEnd
  by_cases last : i + 1 = quarters
  · rw [if_pos last, last, cut_quarters]
    exact ⟨plain.ends, rfl, by omega⟩
  · obtain ⟨ordinary', hn⟩ := getD_shift_spec plain ordinary 1
    rw [if_neg last, cut_of_lt (by omega)]
    refine ⟨Instant.ordinary_min ordinary' plain.ends, ?_, by omega⟩
    refine (Instant.nanos_min ordinary' plain.ends).trans (hn.trans ?_)
    omega

theorem foldl_add_eq_sum {α : Type} (f : α → Nat) (as : List α) :
    as.foldl (fun total a => total + f a) 0 = (as.map f).sum := by
  rw [List.sum_eq_foldl, List.foldl_map]

/-- The seconds of a quarter of an hour are those that the activities lie
between its cuts. -/
theorem quarterSeconds_eq (plain : d.Plain) {i : Nat} (hi : i < quarters) :
    d.quarterSeconds i = (d.activities.map fun a => a.secondsWithin (d.cut i) (d.cut (i + 1))).sum := by
  obtain ⟨ordinary, ⟨past, hcut⟩ | ⟨before, hstart, -⟩⟩ := quarterStart_spec plain hi
  · have skipped : d.quarterEnd i ≤ d.quarterStart i := by
      refine le_trans ?_ past
      unfold quarterEnd
      split
      · exact le_refl _
      · exact min_le_right _ _
    have none : ∀ a ∈ d.activities, a.secondsWithin (d.cut i) (d.cut (i + 1)) = 0 := fun a ha => by
      have := (plain.activity ha).2.2
      unfold Activity.secondsWithin Activity.within
      rw [show max 0 (min a.ends.nanos (d.cut (i + 1)) - max a.starts.nanos (d.cut i)) = 0 by omega]
      rfl
    rw [quarterSeconds, if_pos skipped, List.map_congr_left none]
    simp
  · obtain ⟨ordinary', hend, lt⟩ := quarterEnd_spec plain hi before
    have lasts : ¬ d.quarterEnd i ≤ d.quarterStart i := by
      rw [Instant.le_iff_nanos ordinary' ordinary, hend, hstart]
      omega
    rw [quarterSeconds, if_neg lasts, foldl_add_eq_sum]
    refine congrArg List.sum (List.map_congr_left fun a ha => ?_)
    obtain ⟨ha, ha'⟩ := plain.ordinary a ha
    rw [Activity.sharedSeconds_eq ha ha' ordinary ordinary', hstart, hend]

/-- An entry of the spread is the minutes of the seconds of its quarter. -/
theorem getElem?_spread (plain : d.Plain) {i : Nat} (hi : i < quarters) :
    d.spread[i]? = some (roundedMinutes
      (d.activities.map fun a => a.secondsWithin (d.cut i) (d.cut (i + 1))).sum) := by
  rw [spread, List.getElem?_map, List.getElem?_range hi, Option.map_some, quarterSeconds_eq plain hi]

/-! ## The sum of the entries -/

/-- Two instants are whole minutes after the start of the day. -/
def OnMinutes (d : Day) (a : Activity) : Prop :=
  ∃ m n : Nat, a.starts.nanos = d.starts.nanos + 60000000000 * m ∧
    a.ends.nanos = d.starts.nanos + 60000000000 * n

/-- The whole minutes from the start of the day to where the part of an
activity before a cut ends. -/
def minutesUpTo (d : Day) (i : Nat) (a : Activity) : Nat :=
  ((a.upTo (d.cut i) - d.starts.nanos) / 60000000000).toNat

/-- An activity on whole minutes is cut at whole minutes: no activity goes
past the end of the day, the only cut that may lie elsewhere. -/
theorem upTo_cut (plain : d.Plain) {a : Activity} (ha : a ∈ d.activities) (whole : d.OnMinutes a)
    (i : Nat) : a.upTo (d.cut i) = d.starts.nanos + 60000000000 * d.minutesUpTo i a := by
  obtain ⟨m, n, hm, hn⟩ := whole
  obtain ⟨-, ordered, inside⟩ := plain.activity ha
  unfold minutesUpTo Activity.upTo
  rcases Nat.lt_or_ge i quarters with h | h
  · rw [cut_of_lt h]
    omega
  · rw [cut, if_neg (by omega)]
    omega

theorem minutesUpTo_mono (d : Day) (a : Activity) {i j : Nat} (h : i ≤ j) :
    d.minutesUpTo i a ≤ d.minutesUpTo j a := by
  have := d.cut_mono h
  unfold minutesUpTo Activity.upTo
  omega

/-- The seconds of an activity in a quarter are sixty for each minute that
its part before the cuts grows by. -/
theorem secondsWithin_cut (plain : d.Plain) {a : Activity} (ha : a ∈ d.activities)
    (whole : d.OnMinutes a) (i : Nat) :
    a.secondsWithin (d.cut i) (d.cut (i + 1)) + 60 * d.minutesUpTo i a =
      60 * d.minutesUpTo (i + 1) a := by
  have grows := d.minutesUpTo_mono a (Nat.le_add_right i 1)
  rw [Activity.secondsWithin, Activity.within_eq (plain.activity ha).2.1 (d.cut_mono (Nat.le_add_right i 1)),
    upTo_cut plain ha whole, upTo_cut plain ha whole]
  unfold nanosPerSecond
  omega

/-- The minutes of all activities up to a cut. -/
def totalUpTo (d : Day) (i : Nat) : Nat := (d.activities.map (d.minutesUpTo i)).sum

theorem totalUpTo_mono (d : Day) : Monotone d.totalUpTo := fun _ _ h =>
  List.sum_le_sum fun a _ => d.minutesUpTo_mono a h

section WholeMinutes

variable (plain : d.Plain) (whole : ∀ a ∈ d.activities, d.OnMinutes a)

include plain whole

theorem quarterSeconds_add {i : Nat} (hi : i < quarters) :
    d.quarterSeconds i + 60 * d.totalUpTo i = 60 * d.totalUpTo (i + 1) := by
  rw [quarterSeconds_eq plain hi, totalUpTo, totalUpTo, ← List.sum_map_mul_left, ← List.sum_map_mul_left,
    ← List.sum_map_add]
  exact congrArg List.sum (List.map_congr_left fun a ha => secondsWithin_cut plain ha (whole a ha) i)

/-- The entries up to a cut sum to the minutes up to there. -/
theorem sum_entries (bound : d.totalUpTo quarters < d.totalUpTo 0 + 4294967296) {n : Nat}
    (hn : n ≤ quarters) :
    ((List.range n).map fun i => roundedMinutes (d.quarterSeconds i)).sum + d.totalUpTo 0 =
      d.totalUpTo n := by
  induction n with
  | zero => simp
  | succ n ih =>
    have seconds := quarterSeconds_add plain whole hn
    have first := d.totalUpTo_mono (Nat.zero_le n)
    have last := d.totalUpTo_mono hn
    have entry : roundedMinutes (d.quarterSeconds n) + d.totalUpTo n = d.totalUpTo (n + 1) := by
      unfold roundedMinutes
      omega
    rw [List.sum_range_succ, ← entry, ← ih (by omega)]
    omega

theorem toMinutes_duration {a : Activity} (ha : a ∈ d.activities) :
    a.duration.toMinutes = d.minutesUpTo quarters a - d.minutesUpTo 0 a := by
  obtain ⟨starts, ends⟩ := plain.ordinary a ha
  obtain ⟨after, ordered, inside⟩ := plain.activity ha
  have first := upTo_cut plain ha (whole a ha) 0
  have last := upTo_cut plain ha (whole a ha) quarters
  have grows := d.minutesUpTo_mono a (Nat.zero_le quarters)
  rw [cut_zero plain] at first
  rw [cut_quarters] at last
  unfold Activity.upTo at first last
  have length : a.ends.nanos - a.starts.nanos =
      (d.minutesUpTo quarters a - d.minutesUpTo 0 a) * 60 * 1000000000 := by
    omega
  unfold Activity.duration Duration.toMinutes Duration.toSeconds nanosPerSecond
  rw [Instant.since_of_ordinary ends starts, length, Int.mul_tdiv_cancel _ (by decide),
    Int.mul_tdiv_cancel _ (by decide)]

/-- The entries of the spread sum to the minutes of the activities. -/
theorem sum_spread (bound : (d.activities.map fun a => a.duration.toMinutes).sum < 4294967296) :
    d.spread.sum = d.totalMinutes := by
  have minutes : ∀ a ∈ d.activities, ((a.minutes : Nat) : Int) = a.duration.toMinutes := by
    intro a ha
    have nonneg : ∀ m ∈ d.activities.map fun a => a.duration.toMinutes, 0 ≤ m := by
      intro m hm
      obtain ⟨b, hb, rfl⟩ := List.mem_map.mp hm
      have := d.minutesUpTo_mono b (Nat.zero_le quarters)
      rw [toMinutes_duration plain whole hb]
      omega
    have mem := List.mem_map_of_mem (f := fun a : Activity => a.duration.toMinutes) ha
    have lower := nonneg _ mem
    have upper := List.single_le_sum nonneg _ mem
    rw [Activity.minutes, if_pos ⟨lower, by omega⟩]
    omega
  have total : ((d.activities.map Activity.minutes).sum : Int) =
      (d.activities.map fun a => a.duration.toMinutes).sum := by
    rw [Nat.cast_list_sum, List.map_map]
    exact congrArg List.sum (List.map_congr_left minutes)
  have upTo : (d.activities.map Activity.minutes).sum + d.totalUpTo 0 = d.totalUpTo quarters := by
    rw [totalUpTo, totalUpTo, ← List.sum_map_add]
    refine congrArg List.sum (List.map_congr_left fun a ha => ?_)
    have := minutes a ha
    rw [toMinutes_duration plain whole ha] at this
    omega
  have entries := sum_entries plain whole (by omega) (Nat.le_refl quarters)
  rw [totalMinutes, foldl_add_eq_sum, Nat.mod_eq_of_lt (by omega)]
  change d.spread.sum + _ = _ at entries
  omega

end WholeMinutes

/-! ## Disjoint activities -/

section Disjoint

variable {as : List Activity} {lo hi : Int}

/-- Activities no two of which overlap lie between two times for at most the
time between them. -/
theorem sum_within_le (le : lo ≤ hi) (ordered : ∀ a ∈ as, a.starts.nanos ≤ a.ends.nanos)
    (apart : as.Pairwise fun a b => min a.ends.nanos b.ends.nanos ≤ max a.starts.nanos b.starts.nanos) :
    (as.map fun a => a.within lo hi).sum ≤ hi - lo := by
  induction as generalizing lo hi with
  | nil =>
    rw [List.map_nil, List.sum_nil]
    omega
  | cons a rest ih =>
    rw [List.pairwise_cons] at apart
    have orderedRest := fun b hb => ordered b (List.mem_cons_of_mem a hb)
    rw [List.map_cons, List.sum_cons]
    by_cases outside : min a.ends.nanos hi ≤ max a.starts.nanos lo
    · have := ih le orderedRest apart.2
      rw [Activity.within]
      omega
    -- The others lie before or behind the part of `a` in between.
    · have parts : rest.map (fun b => b.within lo hi) = rest.map fun b =>
          b.within lo (max a.starts.nanos lo) + b.within (min a.ends.nanos hi) hi := by
        refine List.map_congr_left fun b hb => ?_
        have := apart.1 b hb
        have := orderedRest b hb
        unfold Activity.within
        omega
      have before : (rest.map fun b => b.within lo (max a.starts.nanos lo)).sum ≤
          max a.starts.nanos lo - lo := ih (by omega) orderedRest apart.2
      have behind : (rest.map fun b => b.within (min a.ends.nanos hi) hi).sum ≤
          hi - min a.ends.nanos hi := ih (by omega) orderedRest apart.2
      rw [parts, List.sum_map_add, Activity.within]
      omega

theorem sum_secondsWithin_le (as : List Activity) (lo hi : Int) :
    1000000000 * (((as.map fun a => a.secondsWithin lo hi).sum : Nat) : Int) ≤
      (as.map fun a => a.within lo hi).sum := by
  induction as with
  | nil => simp
  | cons a rest ih =>
    have nonneg : 0 ≤ a.within lo hi := Int.le_max_left ..
    have first : 1000000000 * (a.secondsWithin lo hi : Int) ≤ a.within lo hi := by
      unfold Activity.secondsWithin nanosPerSecond
      omega
    rw [List.map_cons, List.map_cons, List.sum_cons, List.sum_cons]
    push_cast at ih ⊢
    omega

end Disjoint

/-- Where no two activities overlap, no quarter but the last has more than
its fifteen minutes. -/
theorem roundedMinutes_le (plain : d.Plain) (disjoint : d.activities.Pairwise Activity.Disjoint)
    {i : Nat} (hi : i + 1 < quarters) : roundedMinutes (d.quarterSeconds i) ≤ 15 := by
  have apart : d.activities.Pairwise fun a b =>
      min a.ends.nanos b.ends.nanos ≤ max a.starts.nanos b.starts.nanos :=
    disjoint.imp_of_mem fun ha hb h =>
      h.min_le_max (plain.ordinary _ ha) (plain.ordinary _ hb)
  have length : d.cut (i + 1) - d.cut i ≤ 900000000000 := by
    rw [cut_of_lt hi, cut_of_lt (by omega)]
    omega
  have nanos := sum_within_le (d.cut_mono (Nat.le_add_right i 1)) (fun a ha => (plain.activity ha).2.1) apart
  have seconds := sum_secondsWithin_le d.activities (d.cut i) (d.cut (i + 1))
  rw [quarterSeconds_eq plain (by omega), roundedMinutes]
  omega

/-- What the spread of a day says of its activities. -/
structure Spreads (d : Day) : Prop where
  length : d.spread.length = 96
  /-- The quarters cover the day without a gap and do not overlap. -/
  quarter : ∀ t : Instant, t.Ordinary →
    (d.covers t = true ↔ ∃! i, i < 96 ∧ d.cut i ≤ t.nanos ∧ t.nanos < d.cut (i + 1))
  /-- An entry is the whole seconds of each activity in its quarter, summed,
  divided by sixty and rounded half up, at most what 32 bits hold. -/
  entry : ∀ i < 96, d.spread[i]? = some (min
    (((d.activities.map fun a => a.secondsWithin (d.cut i) (d.cut (i + 1))).sum + 30) / 60) 4294967295)
  /-- Activities on whole minutes are spread without loss. -/
  sum : (∀ a ∈ d.activities, d.OnMinutes a) →
    (d.activities.map fun a => a.duration.toMinutes).sum < 4294967296 → d.spread.sum = d.totalMinutes
  /-- Disjoint activities fill no quarter but the last one beyond its length. -/
  le_fifteen : d.activities.Pairwise Activity.Disjoint → ∀ i < 95, ∀ n ∈ d.spread[i]?, n ≤ 15

/-- The spread of a day of any length parts it in its quarters. -/
theorem spreads_of_plain (plain : d.Plain) : d.Spreads where
  length := d.length_spread
  quarter _ ht := covers_iff_existsUnique_cut plain ht
  entry i hi := getElem?_spread plain hi
  sum whole bound := sum_spread plain whole bound
  le_fifteen disjoint i hi n hn := by
    have below : i + 1 < quarters := Nat.add_lt_add_right hi 1
    rw [getElem?_spread plain (by omega), ← quarterSeconds_eq plain (by omega)] at hn
    cases hn
    exact roundedMinutes_le plain disjoint below

end Day

namespace Sample

/-- An activity from one minute of 2025-03-29T23:00Z on to another. -/
def stretch (starts ends : Int) : Activity where
  id := ⟨1⟩
  starts := (Instant.ofParts? (1743289200 + starts * 60) 0).getD .epoch
  ends := (Instant.ofParts? (1743289200 + ends * 60) 0).getD .epoch
  device := none
  app := none

/-- A day of 23 hours with two activities, one of them in its last minutes. -/
def shortDay : Day where
  id := ⟨1⟩
  user := ⟨2⟩
  goal := ⟨3⟩
  date := (Date.ofDay? 20177).getD .epoch
  zone := .utc
  starts := (stretch 0 1380).starts
  ends := (stretch 0 1380).ends
  activities := [stretch 640 665, stretch 1373 1380]

/-- The entries of a short day sum to its minutes, none above fifteen. -/
theorem short_day_spread : shortDay.Plain ∧ (∀ a ∈ shortDay.activities, shortDay.OnMinutes a) ∧
    shortDay.activities.Pairwise Activity.Disjoint ∧ shortDay.spread.sum = shortDay.totalMinutes ∧
    ∀ i < 95, ∀ n ∈ shortDay.spread[i]?, n ≤ 15 := by
  have plain : shortDay.Plain :=
    ⟨by decide +kernel, by decide +kernel, by decide +kernel, by decide +kernel, by decide +kernel⟩
  have whole : ∀ a ∈ shortDay.activities, shortDay.OnMinutes a := by
    intro a ha
    rcases List.mem_pair.mp ha with rfl | rfl
    · exact ⟨640, 665, by decide +kernel, by decide +kernel⟩
    · exact ⟨1373, 1380, by decide +kernel, by decide +kernel⟩
  have disjoint : shortDay.activities.Pairwise Activity.Disjoint :=
    List.pairwise_pair.mpr fun t ⟨⟨_, before⟩, after, _⟩ =>
      absurd (lt_of_lt_of_le before (by decide +kernel)) (not_lt_of_ge after)
  have spreads := Day.spreads_of_plain plain
  exact ⟨plain, whole, disjoint, spreads.sum whole (by decide +kernel), spreads.le_fifteen disjoint⟩

end Sample
end UsageDiary
