import Mathlib.Algebra.Group.Nat.Defs
import Mathlib.Data.List.Induction
import Mathlib.Data.List.TakeWhile
import Mathlib.Tactic.Tauto
import UsageDiary.Text.Blank
import UsageDiary.Text.Digits

/-!
# Decimal numbers read back

What is written in decimal is read back: a number padded with zeros has the
value of its digits (`Text.digitsValue_padded`), and the readers of digits
take them and stop behind them (`Text.leading?_append`). Numbers of equally
many digits sort as their texts do (`Text.fixedDigits_lt_iff`).
-/

namespace UsageDiary.Text

/-- A text that does not go on with a digit. -/
def Stops (cs : List Char) : Prop := ∀ c ∈ cs.head?, isDigit c = false

theorem stops_cons {c : Char} {cs : List Char} (h : isDigit c = false) : Stops (c :: cs) := by
  simpa [Stops] using h

theorem isBlank_of_isDigit {c : Char} (h : isDigit c = true) : isBlank c = false := by
  simp only [isDigit, Bool.and_eq_true, decide_eq_true_eq, Char.le_def, UInt32.le_iff_toNat_le] at h
  have low : 48 ≤ c.toNat := h.1
  have high : c.toNat ≤ 57 := h.2
  simp only [isBlank, Bool.or_eq_false_iff, Bool.and_eq_false_iff, decide_eq_false_iff_not,
    beq_eq_false_iff_ne]
  omega

/-! ## Digits -/

@[simp] theorem length_fixedDigits (w n : Nat) : (fixedDigits w n).length = w := by
  induction w generalizing n with
  | zero => rfl
  | succ w ih => simp [fixedDigits, ih]

theorem isDigit_of_mem_fixedDigits {w n : Nat} {c : Char} (h : c ∈ fixedDigits w n) :
    isDigit c = true := by
  induction w generalizing n with
  | zero => simp [fixedDigits] at h
  | succ w ih =>
    rw [fixedDigits, List.mem_append, List.mem_singleton] at h
    rcases h with h | rfl
    · exact ih h
    · exact isDigit_digit (Nat.mod_lt n (by decide))

theorem digitsValue_fixedDigits_of_lt {w n : Nat} (h : n < 10 ^ w) : digitsValue (fixedDigits w n) = n := by
  rw [digitsValue_fixedDigits]
  exact Nat.mod_eq_of_lt h

theorem digitValue_lt {c : Char} (h : isDigit c = true) : digitValue c < 10 := by
  simp only [isDigit, Bool.and_eq_true, decide_eq_true_eq, Char.le_def, UInt32.le_iff_toNat_le] at h
  have high : c.toNat ≤ 57 := h.2
  change c.toNat - 48 < 10
  omega

theorem digitsValue_lt {ds : List Char} (all : ∀ c ∈ ds, isDigit c = true) :
    digitsValue ds < 10 ^ ds.length := by
  induction ds using List.reverseRecOn with
  | nil => decide
  | append_singleton ds c ih =>
    have last := digitValue_lt (all c (by simp))
    have first := ih fun d hd => all d (List.mem_append_left _ hd)
    rw [digitsValue_append_singleton, List.length_append, List.length_singleton, Nat.pow_succ]
    omega

theorem digitCount_pos (n : Nat) : 0 < digitCount n := by
  rw [digitCount]
  split <;> omega

theorem lt_pow_digitCount (n : Nat) : n < 10 ^ digitCount n := by
  induction n using digitCount.induct with
  | case1 n h => rw [digitCount, if_pos h]; exact h
  | case2 n h ih =>
    rw [digitCount, if_neg h, Nat.pow_succ]
    omega

theorem digitCount_le {w n : Nat} (hw : 0 < w) (h : n < 10 ^ w) : digitCount n ≤ w := by
  induction n using digitCount.induct generalizing w with
  | case1 n small => rw [digitCount, if_pos small]; exact hw
  | case2 n large ih =>
    rw [digitCount, if_neg large]
    obtain ⟨v, rfl⟩ : ∃ v, w = v + 1 := ⟨w - 1, by omega⟩
    rw [Nat.pow_succ] at h
    have hv : 0 < v := Nat.pos_of_ne_zero fun hv => by subst hv; omega
    have := ih hv (by omega)
    omega

theorem padded_of_lt {w n : Nat} (hw : 0 < w) (h : n < 10 ^ w) : padded w n = fixedDigits w n := by
  rw [padded, Nat.max_eq_left (digitCount_le hw h)]

theorem digitsValue_padded (w n : Nat) : digitsValue (padded w n) = n :=
  digitsValue_fixedDigits_of_lt
    (Nat.lt_of_lt_of_le (lt_pow_digitCount n) (Nat.pow_le_pow_right (by decide) (Nat.le_max_right ..)))

theorem isDigit_of_mem_padded {w n : Nat} {c : Char} (h : c ∈ padded w n) : isDigit c = true :=
  isDigit_of_mem_fixedDigits h

theorem length_padded (w n : Nat) : (padded w n).length = max w (digitCount n) :=
  length_fixedDigits ..

theorem padded_ne_nil (w n : Nat) : padded w n ≠ [] := by
  have pos := digitCount_pos n
  rw [← List.length_pos_iff, length_padded]
  omega

/-! ## Readers of digits -/

theorem takeDigits_append {most : Nat} {ds rest : List Char} (all : ∀ c ∈ ds, isDigit c = true)
    (few : ds.length ≤ most) (stops : ds.length = most ∨ Stops rest) :
    takeDigits most (ds ++ rest) = (ds, rest) := by
  have taken : ((ds ++ rest).take most).takeWhile isDigit = ds := by
    rw [List.take_append, List.take_of_length_le few, List.takeWhile_append_of_pos all]
    suffices h : (rest.take (most - ds.length)).takeWhile isDigit = [] by rw [h, List.append_nil]
    rcases stops with full | stops
    · rw [full, Nat.sub_self, List.take_zero, List.takeWhile_nil]
    · cases rest with
      | nil => simp
      | cons c rest =>
        cases most - ds.length with
        | zero => rfl
        | succ n => rw [List.take_succ_cons, List.takeWhile_cons_of_neg]; simp [stops c rfl]
  simp only [takeDigits, taken, List.drop_left]

theorem takeDigits_fst (most : Nat) (cs : List Char) :
    (∀ c ∈ (takeDigits most cs).1, isDigit c = true) ∧ (takeDigits most cs).1.length ≤ most := by
  refine ⟨fun c hc => List.mem_takeWhile_imp hc, ?_⟩
  calc ((cs.take most).takeWhile isDigit).length
    _ ≤ (cs.take most).length := (List.takeWhile_sublist _).length_le
    _ ≤ most := List.length_take_le ..

theorem leading?_append {most : Nat} {ds rest : List Char} (some : ds ≠ [])
    (all : ∀ c ∈ ds, isDigit c = true) (few : ds.length ≤ most)
    (stops : ds.length = most ∨ Stops rest) :
    leading? most (ds ++ rest) = .some (digitsValue ds, rest) := by
  simp [leading?, takeDigits_append all few stops, some]

theorem leading?_fixedDigits {w n : Nat} (hw : 0 < w) (h : n < 10 ^ w) (rest : List Char) :
    leading? w (fixedDigits w n ++ rest) = some (n, rest) := by
  rw [leading?_append (List.length_pos_iff.mp (by rwa [length_fixedDigits]))
    (fun _ => isDigit_of_mem_fixedDigits) (Nat.le_of_eq (length_fixedDigits w n))
    (.inl (length_fixedDigits w n)), digitsValue_fixedDigits_of_lt h]

theorem skipBlanks_digits {ds rest : List Char} (some : ds ≠ []) (all : ∀ c ∈ ds, isDigit c = true) :
    skipBlanks (ds ++ rest) = ds ++ rest := by
  obtain ⟨d, ds, rfl⟩ := List.exists_cons_of_ne_nil some
  exact skipBlanks_cons_of_not_blank (isBlank_of_isDigit (all d List.mem_cons_self))

/-! ## Numbers without leading zeros -/

theorem decimal_of_lt {n : Nat} (h : n < 10) : decimal n = [digit n] := by
  rw [decimal, padded_of_lt (by decide) h, fixedDigits, fixedDigits, Nat.mod_eq_of_lt h, List.nil_append]

theorem decimal_of_ge {n : Nat} (h : 10 ≤ n) : decimal n = decimal (n / 10) ++ [digit (n % 10)] := by
  have count : digitCount n = digitCount (n / 10) + 1 := by rw [digitCount, if_neg (by omega)]
  have pos := digitCount_pos (n / 10)
  rw [decimal, padded, count, Nat.max_eq_right (by omega), fixedDigits, decimal, padded,
    Nat.max_eq_right (by omega)]

theorem digitChar_eq {n : Nat} (h : n < 10) : Nat.digitChar n = digit n := by
  have all : ∀ m : Fin 10, Nat.digitChar m = digit m := by decide
  exact all ⟨n, h⟩

/-- Numbers are written in decimal without leading zeros. -/
theorem toList_toString (n : Nat) : (toString n).toList = decimal n := by
  rw [Nat.toString_eq_repr, Nat.toList_repr]
  induction n using digitCount.induct with
  | case1 n h => rw [Nat.toDigits_of_lt_base h, digitChar_eq h, decimal_of_lt h]
  | case2 n h ih =>
    rw [Nat.toDigits_eq_if (by decide), if_neg h, ih, digitChar_eq (Nat.mod_lt n (by decide)),
      ← decimal_of_ge (by omega)]

/-- Only the number zero starts with the digit zero. -/
theorem head?_decimal {n : Nat} (h : n ≠ 0) : (decimal n).head? ≠ some '0' := by
  induction n using digitCount.induct with
  | case1 n small =>
    have all : ∀ m : Fin 10, m ≠ 0 → digit m ≠ '0' := by decide
    rw [decimal_of_lt small, List.head?_singleton, Ne, Option.some.injEq]
    exact all ⟨n, small⟩ (fun e => h (congrArg Fin.val e))
  | case2 n large ih =>
    obtain ⟨c, cs, hcs⟩ := List.exists_cons_of_ne_nil (padded_ne_nil 1 (n / 10))
    have first := ih (by omega)
    rw [decimal, hcs] at first
    rwa [decimal_of_ge (by omega), decimal, hcs]

/-! ## The order of texts -/

theorem fixedDigits_inj {w m n : Nat} (hm : m < 10 ^ w) (hn : n < 10 ^ w) :
    fixedDigits w m = fixedDigits w n ↔ m = n := by
  refine ⟨fun h => ?_, fun h => by rw [h]⟩
  rw [← digitsValue_fixedDigits_of_lt hm, h, digitsValue_fixedDigits_of_lt hn]

/-- Texts that start with equally many characters sort by those first. -/
theorem append_lt_append_iff {as bs xs ys : List Char} (h : as.length = bs.length) :
    as ++ xs < bs ++ ys ↔ as < bs ∨ as = bs ∧ xs < ys := by
  induction as generalizing bs with
  | nil =>
    rw [List.length_nil, eq_comm, List.length_eq_zero_iff] at h
    subst h
    simp
  | cons a as ih =>
    obtain ⟨b, bs, rfl⟩ : ∃ b bs', bs = b :: bs' :=
      List.exists_cons_of_ne_nil (by rintro rfl; cases h)
    rw [List.length_cons, List.length_cons, Nat.add_right_cancel_iff] at h
    rw [List.cons_append, List.cons_append, List.cons_lt_cons_iff, List.cons_lt_cons_iff, ih h,
      List.cons.injEq]
    tauto

theorem digit_lt_digit_iff {m n : Nat} (hm : m < 10) (hn : n < 10) : digit m < digit n ↔ m < n := by
  have all : ∀ m n : Fin 10, digit m < digit n ↔ m < n := by decide
  exact all ⟨m, hm⟩ ⟨n, hn⟩

/-- Numbers written with equally many digits sort as their texts do. -/
theorem fixedDigits_lt_iff {w m n : Nat} (hm : m < 10 ^ w) (hn : n < 10 ^ w) :
    fixedDigits w m < fixedDigits w n ↔ m < n := by
  induction w generalizing m n with
  | zero =>
    rw [Nat.pow_zero] at hm hn
    simp [fixedDigits, show m = n by omega]
  | succ w ih =>
    rw [Nat.pow_succ] at hm hn
    have hm' : m / 10 < 10 ^ w := by omega
    have hn' : n / 10 < 10 ^ w := by omega
    rw [fixedDigits, fixedDigits, append_lt_append_iff (by simp), ih hm' hn', fixedDigits_inj hm' hn']
    have last : [digit (m % 10)] < [digit (n % 10)] ↔ m % 10 < n % 10 := by
      rw [List.cons_lt_cons_iff, digit_lt_digit_iff (Nat.mod_lt m (by decide)) (Nat.mod_lt n (by decide))]
      simp
    rw [last]
    omega

end UsageDiary.Text
