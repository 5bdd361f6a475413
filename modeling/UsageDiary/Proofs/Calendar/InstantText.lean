import UsageDiary.Calendar.InstantText
import UsageDiary.Proofs.Calendar.DateText

/-!
# Instants read back from their texts

The text of an instant is read as that instant (`Instant.parse?_text`): the
date, the time of day with its fraction (`Instant.scanTime_text`) and the
`Z` behind it, each at the start of any text. An instant in a leap second
has such a text only if it follows the last second of a minute, as it does
in all instants that are read (`Instant.kept_of_parse?`).
-/

namespace UsageDiary.Instant

open Text

/-- A leap second follows only the last second of a minute. -/
def Kept (t : Instant) : Prop := t.Ordinary ∨ t.second % 60 = 59

instance (t : Instant) : Decidable t.Kept := inferInstanceAs (Decidable (_ ∨ _))

/-! ## The fraction of a second -/

theorem takeDigits_fixedDigits {w most : Nat} (few : w ≤ most) (n : Nat) {rest : List Char}
    (stops : Stops rest) : takeDigits most (fixedDigits w n ++ rest) = (fixedDigits w n, rest) :=
  takeDigits_append (fun _ => isDigit_of_mem_fixedDigits) (by rwa [length_fixedDigits]) (.inr stops)

theorem dropWhile_of_stops {rest : List Char} (stops : Stops rest) : rest.dropWhile isDigit = rest := by
  cases rest with
  | nil => rfl
  | cons c rest => rw [List.dropWhile_cons_of_neg]; simp [stops c rfl]

/-- A fraction of so many digits is read in nanoseconds. -/
theorem scanFraction_digits {w n : Nat} (pos : 0 < w) (few : w ≤ 9) (h : n < 10 ^ w) {rest : List Char}
    (stops : Stops rest) :
    scanFraction ('.' :: padded w n ++ rest) = some (n * 10 ^ (9 - w), rest) := by
  have nonempty : (fixedDigits w n).isEmpty = false := by
    rw [← Bool.not_eq_true, List.isEmpty_iff_length_eq_zero, length_fixedDigits]
    omega
  rw [padded_of_lt pos h, List.cons_append, scanFraction]
  simp [takeDigits_fixedDigits few n stops, nonempty, dropWhile_of_stops stops,
    digitsValue_fixedDigits_of_lt h]

/-- A text that goes on with neither a digit nor a fraction. -/
def Ends (cs : List Char) : Prop := Stops cs ∧ cs.head? ≠ some '.'

theorem scanFraction_text {n : Nat} (h : n < 1000000000) {rest : List Char} (ends : Ends rest) :
    scanFraction (fractionText n ++ rest) = some (n, rest) := by
  unfold fractionText
  split
  · next zero =>
    rw [List.nil_append, zero]
    unfold scanFraction
    split
    · next digits => exact absurd rfl ends.2
    · rfl
  · split
    · next millis =>
      rw [scanFraction_digits (by decide) (by decide) (by omega) ends.1,
        show n / 1000000 * 10 ^ (9 - 3) = n from Nat.div_mul_cancel (Nat.dvd_of_mod_eq_zero millis)]
    · split
      · next micros =>
        rw [scanFraction_digits (by decide) (by decide) (by omega) ends.1,
          show n / 1000 * 10 ^ (9 - 6) = n from Nat.div_mul_cancel (Nat.dvd_of_mod_eq_zero micros)]
      · rw [scanFraction_digits (by decide) (by decide) (by omega) ends.1, Nat.sub_self, Nat.pow_zero,
          Nat.mul_one]

theorem scanFraction_lt {cs rest : List Char} {nano : Nat} (h : scanFraction cs = some (nano, rest)) :
    nano < 1000000000 := by
  unfold scanFraction at h
  split at h
  · next tail =>
    obtain ⟨all, few⟩ := takeDigits_fst 9 tail
    simp only at h
    split at h
    · cases h
    · cases h
      calc digitsValue (takeDigits 9 tail).1 * 10 ^ (9 - (takeDigits 9 tail).1.length)
        _ < 10 ^ (takeDigits 9 tail).1.length * 10 ^ (9 - (takeDigits 9 tail).1.length) :=
          Nat.mul_lt_mul_of_pos_right (digitsValue_lt all) (Nat.pow_pos (by decide))
        _ = 1000000000 := by rw [← Nat.pow_add, Nat.add_sub_cancel' few]
  · cases h; decide

/-! ## The time of day -/

theorem skipBlanks_padded (w n : Nat) (rest : List Char) :
    skipBlanks (padded w n ++ rest) = padded w n ++ rest :=
  skipBlanks_digits (padded_ne_nil w n) fun _ => isDigit_of_mem_padded

theorem leading?_two {n : Nat} (h : n < 10 ^ 2) (rest : List Char) :
    leading? 2 (padded 2 n ++ rest) = some (n, rest) := by
  rw [padded_of_lt (by decide) h, leading?_fixedDigits (by decide) h]

theorem scanMinor_padded {n : Nat} (h : n < 10 ^ 2) (rest : List Char) :
    scanMinor (':' :: (padded 2 n ++ rest)) = some (n, rest) := by
  rw [scanMinor, skipBlanks_cons_of_not_blank (by decide)]
  simp only [skipBlanks_padded, leading?_two h]

/-- The parts of a time of day are read and checked. -/
theorem scanTime_parts {hour minute second nano : Nat} (hh : hour < 24) (hm : minute < 60)
    (hs : second < 61) (hn : nano < 1000000000) {rest : List Char} (ends : Ends rest) :
    scanTime (padded 2 hour ++ ':' :: (padded 2 minute ++ ':' :: (padded 2 second ++
        (fractionText nano ++ rest)))) =
      some (if second = 60 then ⟨hour * 3600 + minute * 60 + 59, 1000000000 + nano⟩
        else ⟨hour * 3600 + minute * 60 + second, nano⟩, rest) := by
  have valid : ¬ (24 ≤ hour ∨ 60 ≤ minute ∨ 61 ≤ second) := by omega
  simp only [scanTime, skipBlanks_padded, leading?_two (show hour < 10 ^ 2 by omega),
    scanMinor_padded (show minute < 10 ^ 2 by omega), scanMinor_padded (show second < 10 ^ 2 by omega),
    scanFraction_text hn ends, Option.bind_eq_bind, Option.bind_some, if_neg valid, Option.pure_def]
  split <;> rfl

theorem secondOfDay_lt (t : Instant) : 0 ≤ t.secondOfDay ∧ t.secondOfDay < 86400 := by
  unfold secondOfDay secondsPerDay
  omega

/-- The time of day is read with the second and the nanoseconds it shows. -/
theorem scanTime_text {t : Instant} (h : t.Kept) {rest : List Char} (ends : Ends rest) :
    scanTime (t.timeText ++ rest) = some (⟨t.secondOfDay.toNat, t.nano⟩, rest) := by
  obtain ⟨low, high⟩ := t.secondOfDay_lt
  have nano := t.nano_lt
  have kept : t.nano < 1000000000 ∨ t.secondOfDay.toNat % 60 = 59 := by
    refine h.imp_right fun last => ?_
    unfold secondOfDay secondsPerDay
    omega
  have bound : t.secondOfDay.toNat < 86400 := by omega
  simp only [timeText, List.append_assoc, List.cons_append]
  generalize t.secondOfDay.toNat = s at *
  rw [scanTime_parts (by omega) (by omega) (by omega) (by omega) ends]
  -- The second shown is 60 exactly in a leap second.
  split
  · next sixty =>
    have second : s / 3600 * 3600 + s / 60 % 60 * 60 + 59 = s := by omega
    have nanos : 1000000000 + t.nano % 1000000000 = t.nano := by omega
    rw [second, nanos]
  · next under =>
    have second : s / 3600 * 3600 + s / 60 % 60 * 60 + (s % 60 + t.nano / 1000000000) = s := by omega
    have nanos : t.nano % 1000000000 = t.nano := by omega
    rw [second, nanos]

/-- A time of day that is read is in a leap second only at the end of a minute. -/
theorem scanTime_kept {cs rest : List Char} {time : TimeOfDay} (h : scanTime cs = some (time, rest)) :
    time.nano < 1000000000 ∨ time.second % 60 = 59 := by
  unfold scanTime at h
  simp only [Option.bind_eq_bind, Option.bind_eq_some_iff] at h
  obtain ⟨⟨hour, _⟩, -, ⟨minute, _⟩, -, ⟨second, _⟩, -, ⟨nano, _⟩, fraction, h⟩ := h
  split at h
  · cases h
  · split at h
    · cases h
      refine .inr ?_
      dsimp only
      omega
    · cases h
      exact .inl (scanFraction_lt fraction)

/-! ## Instants -/

/-- Offsets are whole minutes. -/
theorem scanOffset_minutes {cs rest : List Char} {offset : Int} (h : scanOffset cs = some (offset, rest)) :
    offset % 60 = 0 := by
  have minutes {sign : Int} {cs : List Char} (h : scanOffset.hoursAndMinutes sign cs = some (offset, rest)) :
      offset % 60 = 0 := by
    unfold scanOffset.hoursAndMinutes at h
    simp only [Option.bind_eq_bind, Option.bind_eq_some_iff] at h
    obtain ⟨⟨hours, _⟩, -, ⟨minutes, _⟩, -, h⟩ := h
    split at h
    · cases h
    · cases h
      rw [Int.mul_emod, show ((hours * 3600 + minutes * 60 : Nat) : Int) % 60 = 0 by omega]
      simp
  unfold scanOffset at h
  split at h
  · cases h; rfl
  · cases h; rfl
  · split at h
    · cases h; rfl
    · split at h
      · exact minutes h
      · split at h
        · exact minutes h
        · cases h
  · cases h

theorem ofParts?_self (t : Instant) : ofParts? t.second t.nano = some t := by
  rw [ofParts?, dif_pos ⟨⟨t.lower, t.upper⟩, t.nano_lt⟩]

/-- The text of an instant is read as that instant. -/
theorem parse?_text {t : Instant} (h : t.Kept) : parse? t.text = some t := by
  have second : t.date.day * 86400 + t.secondOfDay.toNat - 0 = t.second := by
    have := t.secondOfDay_lt
    simp only [date, secondOfDay, secondsPerDay] at *
    omega
  have ends : Ends ['Z'] := ⟨stops_cons (by decide), by decide⟩
  have blank : skipBlanks ['Z'] = ['Z'] := by decide
  have offset : scanOffset ['Z'] = some (0, []) := rfl
  have shape : t.text = t.date.text ++ ('T' :: (t.timeText ++ ['Z'])) := by simp [text]
  rw [parse?, shape, Date.scan_text]
  simp only [Option.bind_eq_bind, Option.bind_some, scanTime_text h ends, blank, offset]
  rw [if_pos (by rfl), second, ofParts?_self]

/-- An instant that is read from a text can be read back from its own. -/
theorem kept_of_parse? {cs : List Char} {t : Instant} (h : parse? cs = some t) : t.Kept := by
  unfold parse? at h
  simp only [Option.bind_eq_bind] at h
  obtain ⟨⟨date, cs⟩, -, h⟩ := Option.bind_eq_some_iff.mp h
  have timed {rest : List Char} (h : ((scanTime rest).bind fun time =>
      (scanOffset (skipBlanks time.2)).bind fun offset =>
        if (skipBlanks offset.2).isEmpty then
          ofParts? (date.day * 86400 + time.1.second - offset.1) time.1.nano
        else none) = some t) : t.Kept := by
    obtain ⟨⟨time, _⟩, read, h⟩ := Option.bind_eq_some_iff.mp h
    obtain ⟨⟨offset, _⟩, shift, h⟩ := Option.bind_eq_some_iff.mp h
    dsimp only at h
    split at h
    · obtain ⟨second, nano⟩ := ofParts?_eq_some h
      have minutes := scanOffset_minutes shift
      refine (scanTime_kept read).imp (fun below => ?_) fun last => ?_
      · rw [Ordinary, nano]; exact below
      · omega
    · cases h
  dsimp only at h
  split at h
  · exact timed h
  · exact timed h
  · exact timed h
  · cases h

end UsageDiary.Instant
