import UsageDiary.Calendar.DateText
import UsageDiary.Proofs.Calendar.Civil
import UsageDiary.Proofs.Text.Decimal

/-!
# Dates read back from their texts

The text of a date is read as that date at the start of any text
(`Date.scan_text`), so by itself as well, in either form of reading
(`Date.parse?_text`, `Date.parseLoose?_text`), and different dates have
different texts (`Date.eq_of_text`). Dates of the years 0 to 9999 have texts
of one shape, which sort as the dates do (`Date.toString_lt_iff`).
-/

namespace UsageDiary

open Text

/-! ## Reading -/

theorem stops_dash (rest : List Char) : Stops ('-' :: rest) := stops_cons (by decide)

/-- The digits of a padded number are read up to the dash behind them. -/
theorem leading?_padded (w n : Nat) (rest : List Char) :
    leading? (padded w n ++ '-' :: rest).length (padded w n ++ '-' :: rest) = some (n, '-' :: rest) := by
  rw [leading?_append (padded_ne_nil w n) (fun _ => isDigit_of_mem_padded)
    (by rw [List.length_append]; omega) (.inr (stops_dash rest)), digitsValue_padded]

namespace Date

/-- A year of four digits without a sign is read as it is. -/
theorem scanYear_fixedDigits {n : Nat} (h : n < 10 ^ 4) (rest : List Char) :
    scanYear (fixedDigits 4 n ++ rest) = some ((n : Int), rest) := by
  have digits : ∀ c ∈ fixedDigits 4 n, isDigit c = true := fun _ => isDigit_of_mem_fixedDigits
  have some : fixedDigits 4 n ≠ [] := List.length_pos_iff.mp (by rw [length_fixedDigits]; decide)
  have lead := leading?_fixedDigits (by decide) h rest
  obtain ⟨d, ds, hd⟩ := List.exists_cons_of_ne_nil some
  rw [scanYear, skipBlanks_digits some digits]
  rw [hd] at lead digits ⊢
  -- The text starts with a digit, so with no sign.
  have first := digits d List.mem_cons_self
  split
  · next eq => cases eq; exact absurd first (by decide)
  · next eq => cases eq; exact absurd first (by decide)
  · rw [lead, Option.map_some]

theorem scanYear_yearText (y : Int) (rest : List Char) :
    scanYear (yearText y ++ '-' :: rest) = some (y, '-' :: rest) := by
  unfold yearText
  split
  · next neg =>
    rw [List.cons_append, scanYear, skipBlanks_cons_of_not_blank (by decide)]
    simp only [leading?_padded, Option.map_some, show -(y.natAbs : Int) = y by omega]
  · next nonneg =>
    split
    · rw [List.cons_append, scanYear, skipBlanks_cons_of_not_blank (by decide)]
      simp only [leading?_padded, Option.map_some, show (y.natAbs : Int) = y by omega]
    · next le =>
      have four : y.natAbs < 10 ^ 4 := by omega
      rw [padded_of_lt (by decide) four, scanYear_fixedDigits four, show (y.natAbs : Int) = y by omega]

theorem scanPart_padded (loose : Bool) {n : Nat} (h : n < 10 ^ 2) (rest : List Char) :
    scanPart loose ('-' :: padded 2 n ++ rest) = some (n, rest) := by
  have dash (cs : List Char) : (if loose then skipBlanks ('-' :: cs) else '-' :: cs) = '-' :: cs := by
    rw [skipBlanks_cons_of_not_blank (by decide), ite_self]
  rw [List.cons_append, padded_of_lt (by decide) h, scanPart, dash]
  simp only []
  rw [skipBlanks_digits (List.length_pos_iff.mp (by rw [length_fixedDigits]; decide))
    (fun _ => isDigit_of_mem_fixedDigits), leading?_fixedDigits (by decide) h]

theorem month_lt (d : Date) : d.month < 10 ^ 2 := Nat.lt_of_le_of_lt d.month_spec.2.1 (by decide)

theorem dayOfMonth_lt (d : Date) : d.dayOfMonth < 10 ^ 2 := Nat.lt_of_le_of_lt d.dayOfMonth_le (by decide)

/-- A date is read at the start of any text. -/
theorem scan_text (loose : Bool) (d : Date) (rest : List Char) :
    scan loose (d.text ++ rest) = some (d, rest) := by
  have shape : d.text ++ rest =
      yearText d.year ++ '-' :: (padded 2 d.month ++ ('-' :: padded 2 d.dayOfMonth ++ rest)) := by
    simp [text]
  have month := scanPart_padded loose d.month_lt ('-' :: padded 2 d.dayOfMonth ++ rest)
  have day := scanPart_padded loose d.dayOfMonth_lt rest
  rw [List.cons_append] at month
  simp only [scan, shape, scanYear_yearText, month, day, ofCivil?_civil, Option.bind_eq_bind,
    Option.bind_some, Option.pure_def]

theorem parse?_text (d : Date) : parse? d.text = some d := by
  have read := scan_text false d []
  rw [List.append_nil] at read
  rw [parse?, read]

theorem parseLoose?_text (d : Date) : parseLoose? d.text = some d := by
  have read := scan_text true d []
  rw [List.append_nil] at read
  rw [parseLoose?, read]
  rfl

theorem toList_toString (d : Date) : (toString d).toList = d.text := by
  change (String.ofList d.text).toList = d.text
  exact String.toList_ofList

theorem eq_of_text {d e : Date} (h : toString d = toString e) : d = e := by
  have read := parse?_text d
  rw [← toList_toString, h, toList_toString, parse?_text] at read
  exact (Option.some.inj read).symm

/-! ## The order of texts -/

/-- A date of the years 0 to 9999, whose text has four digits for the year
and no sign. -/
def Plain (d : Date) : Prop := 0 ≤ d.year ∧ d.year ≤ 9999

instance (d : Date) : Decidable d.Plain := inferInstanceAs (Decidable (_ ∧ _))

theorem Plain.year_lt {d : Date} (h : d.Plain) : d.year.natAbs < 10 ^ 4 := by
  obtain ⟨low, high⟩ := h
  omega

theorem Plain.text_eq {d : Date} (h : d.Plain) : d.text = fixedDigits 4 d.year.natAbs ++
    ('-' :: (fixedDigits 2 d.month ++ ('-' :: fixedDigits 2 d.dayOfMonth))) := by
  have four := h.year_lt
  obtain ⟨low, high⟩ := h
  rw [text, yearText, if_neg (by omega), if_neg (by omega), padded_of_lt (by decide) four,
    padded_of_lt (by decide) d.month_lt, padded_of_lt (by decide) d.dayOfMonth_lt]
  simp

/-- Numbers of equally many digits with other text behind them sort by the
numbers and then by what is behind. -/
theorem fixedDigits_append_lt_iff {w m n : Nat} (hm : m < 10 ^ w) (hn : n < 10 ^ w)
    {xs ys : List Char} :
    fixedDigits w m ++ xs < fixedDigits w n ++ ys ↔ m < n ∨ m = n ∧ xs < ys := by
  rw [append_lt_append_iff (by simp), fixedDigits_lt_iff hm hn, fixedDigits_inj hm hn]

theorem dash_lt_dash_iff {xs ys : List Char} : '-' :: xs < '-' :: ys ↔ xs < ys := by
  simp

/-- Texts of dates of the years 0 to 9999 sort as the dates do. -/
theorem toString_lt_iff {d e : Date} (hd : d.Plain) (he : e.Plain) :
    toString d < toString e ↔ d < e := by
  have low := hd.1
  have low' := he.1
  have years : d.year.natAbs < e.year.natAbs ↔ d.year < e.year := by omega
  have same : d.year.natAbs = e.year.natAbs ↔ d.year = e.year := by omega
  rw [String.lt_iff, toList_toString, toList_toString, hd.text_eq, he.text_eq,
    fixedDigits_append_lt_iff hd.year_lt he.year_lt, dash_lt_dash_iff,
    fixedDigits_append_lt_iff d.month_lt e.month_lt, dash_lt_dash_iff,
    fixedDigits_lt_iff d.dayOfMonth_lt e.dayOfMonth_lt, years, same, lt_iff_civil]

end Date
end UsageDiary
