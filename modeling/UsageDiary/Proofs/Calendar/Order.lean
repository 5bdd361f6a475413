import Mathlib.Order.Defs.LinearOrder
import UsageDiary.Settings

/-!
# The order of dates and instants

Dates and instants are linearly ordered. Main statements: an instant moved
forward does not come earlier (`Instant.le_of_shift?`), and one outside
every leap second moved back does not come later
(`Instant.ge_of_shift?_neg`).
-/

namespace UsageDiary

instance : LinearOrder Date where
  le_refl a := Int.le_refl a.day
  le_trans _ _ _ h h' := Int.le_trans h h'
  le_antisymm _ _ h h' := Date.ext (Int.le_antisymm h h')
  le_total a b := Int.le_total a.day b.day
  lt_iff_le_not_ge a b := by simp only [Date.le_def, Date.lt_def]; omega
  toDecidableLE := inferInstance

instance : LinearOrder Instant where
  le_refl a := Or.inr ⟨rfl, Nat.le_refl _⟩
  le_trans a b c h h' := by rw [Instant.le_def] at h h' ⊢; omega
  le_antisymm a b h h' := by
    rw [Instant.le_def] at h h'
    exact Instant.ext (by omega) (by omega)
  le_total a b := by rw [Instant.le_def, Instant.le_def]; omega
  lt_iff_le_not_ge a b := by rw [Instant.le_def, Instant.le_def, Instant.lt_def]; omega
  toDecidableLE := inferInstance

namespace Date

theorem day_of_next? {d next : Date} (h : d.next? = some next) : next.day = d.day + 1 :=
  day_of_ofDay? h

theorem lt_next {d next : Date} (h : d.next? = some next) : d < next := by
  have := day_of_next? h
  rw [lt_def]
  omega

/-- No date lies between a date and the one after it. -/
theorem next_le {d next e : Date} (h : d.next? = some next) (he : d < e) : next ≤ e := by
  have := day_of_next? h
  rw [lt_def] at he
  rw [le_def]
  omega

end Date

namespace Instant

theorem ofParts?_eq_some {second : Int} {nano : Nat} {t : Instant}
    (h : ofParts? second nano = some t) : t.second = second ∧ t.nano = nano := by
  simp only [ofParts?] at h
  split at h
  · cases h; exact ⟨rfl, rfl⟩
  · cases h

theorem ofParts?_eq_none {second : Int} {nano : Nat} (h : ofParts? second nano = none) :
    ¬ ((-8334601228800 ≤ second ∧ second ≤ 8210266876799) ∧ nano < 2000000000) := by
  simp only [ofParts?] at h
  split at h
  · cases h
  · assumption

theorem ordinary_of_ofParts? {second : Int} {t : Instant} (h : ofParts? second 0 = some t) :
    t.Ordinary := by
  unfold Ordinary
  rw [(ofParts?_eq_some h).2]
  omega

theorem nanosPerSecond_pos : 0 < nanosPerSecond := by
  unfold nanosPerSecond
  omega

/-- Outside leap seconds instants sort by their nanoseconds since 1970. -/
theorem le_iff_nanos {a b : Instant} (ha : a.Ordinary) (hb : b.Ordinary) :
    a ≤ b ↔ a.nanos ≤ b.nanos := by
  unfold Ordinary at ha hb
  rw [le_def]
  simp only [nanos, nanosPerSecond]
  omega

theorem lt_iff_nanos {a b : Instant} (ha : a.Ordinary) (hb : b.Ordinary) :
    a < b ↔ a.nanos < b.nanos := by
  rw [← not_le, le_iff_nanos hb ha]
  exact Int.not_le

theorem shift?_eq_some {t t' : Instant} {d : Int} (h : t.shift? d = some t') :
    t'.second = (shiftParts t.second t.nano d).1 ∧
      t'.nano = (shiftParts t.second t.nano d).2.toNat := by
  unfold shift? at h
  exact ofParts?_eq_some h

theorem shiftParts_snd_of_ordinary {t : Instant} (h : t.Ordinary) (d : Int) :
    0 ≤ (shiftParts t.second t.nano d).2 ∧ (shiftParts t.second t.nano d).2 < nanosPerSecond := by
  have hn : (t.nano : Int) < nanosPerSecond := by
    simp only [nanosPerSecond]; unfold Ordinary at h; omega
  simp only [shiftParts, hn, if_true, shiftParts.carry]
  exact ⟨Int.emod_nonneg _ (Int.ne_of_gt nanosPerSecond_pos), Int.emod_lt_of_pos _ nanosPerSecond_pos⟩

/-- An ordinary instant moved by a length of time is ordinary, and that many
nanoseconds away. -/
theorem shift?_of_ordinary {t t' : Instant} {d : Int} (ht : t.Ordinary)
    (h : t.shift? d = some t') : t'.Ordinary ∧ t'.nanos = t.nanos + d := by
  obtain ⟨hs, hn⟩ := shift?_eq_some h
  obtain ⟨h0, h1⟩ := shiftParts_snd_of_ordinary ht d
  have hsum := shiftParts_of_ordinary ht d
  simp only [nanosPerSecond] at h1 hsum
  refine ⟨by unfold Ordinary; omega, ?_⟩
  simp only [nanos, nanosPerSecond] at hsum ⊢
  omega

/-- Ordinary instants moved by one length of time stay in order. -/
theorem shift?_le_iff {t t' u u' : Instant} {d : Int} (ht : t.Ordinary) (hu : u.Ordinary)
    (h : t.shift? d = some t') (h' : u.shift? d = some u') : t ≤ u ↔ t' ≤ u' := by
  obtain ⟨ht', hn⟩ := shift?_of_ordinary ht h
  obtain ⟨hu', hn'⟩ := shift?_of_ordinary hu h'
  rw [le_iff_nanos ht hu, le_iff_nanos ht' hu', hn, hn']
  omega

theorem since_of_shift? {t t' earlier : Instant} {d : Int} (ht : t.Ordinary) (he : earlier.Ordinary)
    (h : t.shift? d = some t') : t'.since earlier = t.since earlier + d := by
  obtain ⟨ht', hn⟩ := shift?_of_ordinary ht h
  rw [since_of_ordinary ht' he, since_of_ordinary ht he, hn]
  show (t.nanos + d - earlier.nanos : Int) = t.nanos - earlier.nanos + d
  omega

/-- Ordinary instants moved to the same place come to the same instant, or
leave the calendar both. -/
theorem shift?_congr {t u : Instant} {d e : Int} (ht : t.Ordinary) (hu : u.Ordinary)
    (same : t.nanos + d = u.nanos + e) : t.shift? d = u.shift? e := by
  obtain ⟨h0, h1⟩ := shiftParts_snd_of_ordinary ht d
  obtain ⟨h0', h1'⟩ := shiftParts_snd_of_ordinary hu e
  have hsum := shiftParts_of_ordinary ht d
  have hsum' := shiftParts_of_ordinary hu e
  simp only [nanosPerSecond] at h1 h1' hsum hsum'
  have parts : shiftParts t.second t.nano d = shiftParts u.second u.nano e :=
    Prod.ext (by omega) (by omega)
  unfold shift?
  rw [parts]

/-- An ordinary instant can be moved to a place between two instants. -/
theorem isSome_shift? {t a b : Instant} {d : Int} (ht : t.Ordinary) (ha : a.Ordinary) (hb : b.Ordinary)
    (after : a.nanos ≤ t.nanos + d) (before : t.nanos + d ≤ b.nanos) : (t.shift? d).isSome = true := by
  obtain ⟨h0, h1⟩ := shiftParts_snd_of_ordinary ht d
  have hsum := shiftParts_of_ordinary ht d
  have hlower := a.lower
  have hupper := b.upper
  unfold Ordinary at ha hb
  simp only [nanos, nanosPerSecond] at h1 hsum after before
  unfold shift? ofParts?
  rw [dif_pos ⟨⟨by omega, by omega⟩, by omega⟩]
  rfl

theorem ge_of_shift?_neg {t t' : Instant} {d : Int} (ht : t.Ordinary)
    (h : t.shift? (-d) = some t') (hd : 0 ≤ d) : t' ≤ t := by
  obtain ⟨ht', hn⟩ := shift?_of_ordinary ht h
  rw [le_iff_nanos ht' ht, hn]
  omega

theorem le_of_shift? {t t' : Instant} {d : Int} (h : t.shift? d = some t') (hd : 0 ≤ d) :
    t ≤ t' := by
  by_cases ht : t.Ordinary
  · obtain ⟨ht', hn⟩ := shift?_of_ordinary ht h
    rw [le_iff_nanos ht ht', hn]
    omega
  -- A move within a leap second keeps to its second, and one out of it ends in a later one.
  · have hnano : ¬ (t.nano : Int) < nanosPerSecond := by
      simp only [nanosPerSecond]; unfold Ordinary at ht; omega
    have hq : 0 ≤ Duration.toSeconds d := Int.tdiv_nonneg hd (Int.le_of_lt nanosPerSecond_pos)
    have hr : 0 ≤ Int.tmod d nanosPerSecond := Int.tmod_nonneg _ hd
    obtain ⟨hs, hn⟩ := shift?_eq_some h
    rw [le_def]
    by_cases hc : 0 < Duration.toSeconds d ∨
        0 < Int.tmod d nanosPerSecond ∧ 2 * nanosPerSecond ≤ t.nano + Int.tmod d nanosPerSecond
    · simp only [shiftParts, hnano, if_false, hc, if_true, shiftParts.carry] at hs
      simp only [nanosPerSecond] at hnano hr hc hs
      omega
    · have hb : ¬ Duration.toSeconds d < 0 := by omega
      simp only [shiftParts, hnano, if_false, hc, hb] at hs hn
      omega

end Instant
end UsageDiary
