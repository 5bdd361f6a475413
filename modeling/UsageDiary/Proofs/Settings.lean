import UsageDiary.Proofs.Json.Forms
import UsageDiary.Proofs.Work
import UsageDiary.Settings

/-!
# The lengths of time that settings name

A window is kept as a number of milliseconds of 64 bits. Below `signBit` it
is the length of time it says; the number itself is none, and a greater one
wraps around to a negative length (`Settings.millis?_eq_none_iff`,
`Settings.millis?_neg_iff`). The checks do not look at this: settings that
pass them are sane exactly if the windows for combining and for the skew of
clocks are below `signBit` (`Settings.sane_iff_below_signBit`). Settings
that are read from the environment pass the checks and have every length,
since no number of whole seconds is `signBit`.
-/

namespace UsageDiary

/-- What every step keeps, steps that all succeed keep. -/
theorem foldlM_keeps {ε α β : Type} {f : β → α → Except ε β} {holds : β → Prop}
    (step : ∀ b a b', f b a = .ok b' → holds b → holds b') {as : List α} {b b' : β}
    (h : as.foldlM f b = .ok b') (start : holds b) : holds b' := by
  induction as generalizing b with
  | nil =>
    cases h
    exact start
  | cons a rest ih =>
    rw [List.foldlM_cons] at h
    obtain ⟨next, first, h⟩ := exists_of_bind h
    exact ih h (step b a next first start)

/-- The number that only the highest of 64 bits makes up. -/
def signBit : Nat := 9223372036854775808

/-- The windows of settings that are used as lengths of time. -/
inductive Window where
  | combine
  | skip
  | skewTolerance
  | minimum

namespace Window

/-- The milliseconds of a window. -/
def millis (s : Settings) : Window → Nat
  | combine => s.combineMillis
  | skip => s.skipMillis
  | skewTolerance => s.skewToleranceMillis
  | minimum => s.minimumMillis

/-- A window as a length of time. -/
def length? (s : Settings) : Window → Option Duration
  | combine => s.combineInterval?
  | skip => s.skipWindow?
  | skewTolerance => s.clockSkewTolerance?
  | minimum => s.minimumDuration?

theorem length?_eq (s : Settings) (w : Window) : w.length? s = Settings.millis? (w.millis s) := by
  cases w <;> rfl

end Window

namespace Settings

/-- Every window is the length of time that its milliseconds say, which is
not negative, and the one for skipping is shorter than the one for
combining. -/
structure Sane (s : Settings) : Prop where
  lengths : ∀ w : Window, ∃ d, w.length? s = some d ∧ 0 ≤ d ∧ d = .ofMillis (w.millis s)
  skip_lt : ∃ skip combine, s.skipWindow? = some skip ∧ s.combineInterval? = some combine ∧
    skip < combine

/-! ## One window -/

section Window

variable {n : Nat}

theorem millis?_of_lt (h : n < signBit) : millis? n = some (.ofMillis n) := if_pos h

theorem millis?_eq_none_iff : millis? n = none ↔ n = signBit := by
  unfold millis? signBit
  split
  · next below => simp only [reduceCtorEq, false_iff]; omega
  · split
    · next same => simp only [true_iff]; exact same
    · next other => simp only [reduceCtorEq, false_iff]; exact other

theorem millis?_of_gt (h : signBit < n) :
    millis? n = some (.ofMillis ((n : Int) - 18446744073709551616)) := by
  unfold signBit at h
  rw [millis?, if_neg (by omega), if_neg (by omega)]

/-- A number of 64 bits wraps around to a negative length of time exactly
beyond the sign bit. -/
theorem millis?_neg_iff (fits : n ≤ maxWord) : (∃ d ∈ millis? n, d < 0) ↔ signBit < n := by
  unfold maxWord at fits
  constructor
  · rintro ⟨d, hd, negative⟩
    rcases lt_trichotomy n signBit with below | same | above
    · rw [millis?_of_lt below, Option.mem_some_iff] at hd
      subst hd
      have positive : ((n : Int) * 1000000) < 0 := negative
      omega
    · rw [millis?_eq_none_iff.mpr same] at hd
      cases hd
    · exact above
  · intro above
    refine ⟨_, millis?_of_gt above, ?_⟩
    show ((n : Int) - 18446744073709551616) * 1000000 < 0
    omega

/-- A number is the length of time that it says exactly below the sign bit. -/
theorem millis?_eq_iff : millis? n = some (.ofMillis n) ↔ n < signBit := by
  refine ⟨fun h => ?_, millis?_of_lt⟩
  rcases lt_trichotomy n signBit with below | same | above
  · exact below
  · rw [millis?_eq_none_iff.mpr same] at h
    cases h
  · rw [millis?_of_gt above, Option.some.injEq] at h
    have wrapped : ((n : Int) - 18446744073709551616) * 1000000 = n * 1000000 := h
    omega

end Window

/-! ## All windows -/

theorem Fits.window {s : Settings} (fits : s.Fits) (w : Window) : w.millis s ≤ maxWord := by
  cases w
  · exact fits.combineMillis
  · exact fits.skipMillis
  · exact fits.skewToleranceMillis
  · exact fits.minimumMillis

/-- Settings that pass the checks are sane if the two windows that the
checks leave unbounded are below the sign bit, and only then. -/
theorem sane_iff {s : Settings} (checked : s.validate = .ok ()) :
    s.Sane ↔ s.combineMillis < signBit ∧ s.skewToleranceMillis < signBit := by
  have order := skip_lt_combine checked
  have minimum := (minimum_of_checked checked).2
  constructor
  · intro sane
    have below (w : Window) : w.millis s < signBit := by
      obtain ⟨d, hd, -, rfl⟩ := sane.lengths w
      exact millis?_eq_iff.mp (w.length?_eq s ▸ hd)
    exact ⟨below .combine, below .skewTolerance⟩
  · rintro ⟨combine, skew⟩
    have skip : s.skipMillis < signBit := Nat.lt_trans order combine
    have below : ∀ w : Window, w.millis s < signBit
      | .combine => combine
      | .skip => skip
      | .skewTolerance => skew
      | .minimum => Nat.lt_trans minimum (by decide)
    refine ⟨fun w => ?_, _, _, millis?_of_lt skip, millis?_of_lt combine, ?_⟩
    · refine ⟨_, (w.length?_eq s).trans (millis?_of_lt (below w)), ?_, rfl⟩
      exact Int.mul_nonneg (Int.natCast_nonneg _) (by decide)
    · exact Int.mul_lt_mul_of_pos_right (Int.ofNat_lt.mpr order) (by decide)

/-! ## Settings from the environment -/

/-- The numbers of settings fit 64 bits, and every window is whole seconds. -/
structure Seconds (s : Settings) : Prop where
  windows : ∀ w : Window, w.millis s ≤ maxWord ∧ 1000 ∣ w.millis s
  maxUrlLength : s.maxUrlLength ≤ maxWord

theorem Seconds.fits {s : Settings} (h : s.Seconds) : s.Fits where
  combineMillis := (h.windows .combine).1
  skipMillis := (h.windows .skip).1
  skewToleranceMillis := (h.windows .skewTolerance).1
  minimumMillis := (h.windows .minimum).1
  maxUrlLength := h.maxUrlLength

theorem seconds_default : ({} : Settings).Seconds :=
  ⟨fun w => by cases w <;> decide, by decide⟩

theorem le_of_word? {raw : String} {n : Nat} (h : word? raw = some n) : n ≤ maxWord := by
  simpa using (Option.filter_eq_some_iff.mp h).2

theorem of_secondsAsMillis? {raw : String} {n : Nat} (h : secondsAsMillis? raw = some n) :
    n ≤ maxWord ∧ 1000 ∣ n := by
  obtain ⟨seconds, -, h⟩ := Option.bind_eq_some_iff.mp h
  split at h
  · next fits =>
    cases h
    exact ⟨fits, Nat.dvd_mul_left ..⟩
  · cases h

/-- A variable sets at most one number, which it reads as seconds for a window. -/
theorem Seconds.apply {s s' : Settings} (seconds : s.Seconds) {raw : String} {v : Variable}
    (h : v.apply s raw = .ok s') : s'.Seconds := by
  obtain ⟨windows, url⟩ := seconds
  cases v with simp only [Variable.apply] at h
  | combineIntervalSeconds =>
    split at h <;> cases h
    next read => exact ⟨fun
      | .combine => of_secondsAsMillis? read
      | .skip => windows .skip
      | .skewTolerance => windows .skewTolerance
      | .minimum => windows .minimum, url⟩
  | skipWindowSeconds =>
    split at h <;> cases h
    next read => exact ⟨fun
      | .combine => windows .combine
      | .skip => of_secondsAsMillis? read
      | .skewTolerance => windows .skewTolerance
      | .minimum => windows .minimum, url⟩
  | clockSkewToleranceSeconds =>
    split at h <;> cases h
    next read => exact ⟨fun
      | .combine => windows .combine
      | .skip => windows .skip
      | .skewTolerance => of_secondsAsMillis? read
      | .minimum => windows .minimum, url⟩
  | minimumActivitySeconds =>
    split at h <;> cases h
    next read => exact ⟨fun
      | .combine => windows .combine
      | .skip => windows .skip
      | .skewTolerance => windows .skewTolerance
      | .minimum => of_secondsAsMillis? read, url⟩
  | maxUrlLength =>
    split at h <;> cases h
    next read => exact ⟨windows, le_of_word? read⟩
  | conflictPolicy =>
    split at h <;> cases h
    exact ⟨windows, url⟩
  | databaseUrl =>
    cases h
    exact ⟨windows, url⟩
  | logLevel =>
    cases h
    exact ⟨windows, url⟩

/-- Settings from the environment are whole seconds and pass the checks. -/
theorem of_environment {lookup : Variable → Option String} {s : Settings}
    (h : ofEnvironment lookup = .ok s) : s.Seconds ∧ s.validate = .ok () := by
  obtain ⟨read, folded, h⟩ := exists_of_bind h
  obtain ⟨⟨⟩, checked, h⟩ := exists_of_bind h
  cases h
  refine ⟨foldlM_keeps (fun s v s' applied seconds => ?_) folded seconds_default, checked⟩
  split at applied
  · exact seconds.apply applied
  · cases applied
    exact seconds

/-- A window of whole seconds is a length of time, which may be negative. -/
theorem Seconds.isSome_length? {s : Settings} (h : s.Seconds) (w : Window) : (w.length? s).isSome = true := by
  rw [w.length?_eq, Option.isSome_iff_ne_none, Ne, millis?_eq_none_iff]
  have whole := (h.windows w).2
  intro same
  rw [same] at whole
  exact absurd whole (by decide)

/-- Settings that pass the checks are sane exactly if the windows for
combining and for the skew of clocks are below the sign bit. At the sign bit
a window has no length of time, and beyond it a negative one. Settings from
the environment pass the checks, and have every length. -/
theorem sane_iff_below_signBit (s : Settings) :
    (s.Fits → s.validate = .ok () →
      (s.Sane ↔ s.combineMillis < signBit ∧ s.skewToleranceMillis < signBit) ∧
      ∀ w : Window, (w.length? s = none ↔ w.millis s = signBit) ∧
        ((∃ d ∈ w.length? s, d < 0) ↔ signBit < w.millis s)) ∧
    ∀ lookup : Variable → Option String, ofEnvironment lookup = .ok s →
      s.Fits ∧ s.validate = .ok () ∧ ∀ w : Window, (w.length? s).isSome = true := by
  refine ⟨fun fits checked => ⟨sane_iff checked, fun w => ?_⟩, fun lookup read => ?_⟩
  · rw [w.length?_eq]
    exact ⟨millis?_eq_none_iff, millis?_neg_iff (fits.window w)⟩
  · obtain ⟨seconds, checked⟩ := of_environment read
    exact ⟨seconds.fits, checked, seconds.isSome_length?⟩

end Settings

namespace Sample

/-- An environment with this interval for combining, in seconds. -/
def combining (seconds : String) : Settings.Variable → Option String
  | .combineIntervalSeconds => some seconds
  | _ => none

/-- Settings that combine events up to this many milliseconds apart. -/
def combiningMillis (n : Nat) : Settings := { combineMillis := n }

/-- The longest interval of whole seconds below the sign bit is sane. -/
theorem longest_interval_sane :
    Settings.ofEnvironment (combining "9223372036854775") = .ok (combiningMillis 9223372036854775000) ∧
    (combiningMillis 9223372036854775000).Sane := by
  have read : Settings.ofEnvironment (combining "9223372036854775") =
      .ok (combiningMillis 9223372036854775000) := by decide +kernel
  obtain ⟨sane, environment⟩ := Settings.sane_iff_below_signBit (combiningMillis 9223372036854775000)
  obtain ⟨fits, checked, -⟩ := environment _ read
  exact ⟨read, (sane fits checked).1.mpr (by decide)⟩

/-- A second more is read and passes the checks, but gives a negative
interval, below the window for skipping. At the sign bit itself there is
none. -/
theorem interval_beyond_signBit :
    Settings.ofEnvironment (combining "9223372036854776") = .ok (combiningMillis 9223372036854776000) ∧
    (combiningMillis 9223372036854776000).validate = .ok () ∧
    (∃ skip combine, (combiningMillis 9223372036854776000).skipWindow? = some skip ∧
      (combiningMillis 9223372036854776000).combineInterval? = some combine ∧
      combine < 0 ∧ combine < skip) ∧
    (combiningMillis signBit).validate = .ok () ∧ (combiningMillis signBit).combineInterval? = none :=
  ⟨by decide +kernel, by rfl, ⟨.ofMillis 5000, .ofMillis (-9223372036854775616), by rfl, by rfl, by decide, by decide⟩,
    by rfl, by rfl⟩

end Sample
end UsageDiary
