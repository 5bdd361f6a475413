import Mathlib.Algebra.GroupWithZero.Nat
import Mathlib.Data.List.Induction
import UsageDiary.Id

/-!
# Hexadecimal numbers and ids read back

Hexadecimal digits carry a number up to multiples of a power of sixteen
(`Id.ofHex?_hexDigits`), and hyphens put between groups of them come out
again (`Id.unhyphenate?_hyphenate`). So the text of an id of 128 bits is read
as that id (`Id.parse?_text`), as every id that is read has
(`Id.fits_of_parse?`), and two such ids have different texts
(`Id.Fits.eq_of_text`).
-/

namespace UsageDiary.Id

/-! ## Digits -/

theorem hexValue?_hexDigit {n : Nat} (h : n < 16) : hexValue? (hexDigit n) = some n := by
  have all : ∀ m : Fin 16, hexValue? (hexDigit m) = some m.val := by decide
  exact all ⟨n, h⟩

@[simp] theorem length_hexDigits (w n : Nat) : (hexDigits w n).length = w := by
  induction w generalizing n with
  | zero => rfl
  | succ w ih => simp [hexDigits, ih]

theorem ofHex?_append_singleton (cs : List Char) (c : Char) :
    ofHex? (cs ++ [c]) = (ofHex? cs).bind fun n => (hexValue? c).map (n * 16 + ·) := by
  simp [ofHex?]

theorem ofHex?_hexDigits (w n : Nat) : ofHex? (hexDigits w n) = some (n % 16 ^ w) := by
  induction w generalizing n with
  | zero => simp [hexDigits, ofHex?, Nat.mod_one]
  | succ w ih =>
    rw [hexDigits, ofHex?_append_singleton, ih, hexValue?_hexDigit (Nat.mod_lt _ (by decide)),
      Option.bind_some, Option.map_some, Nat.pow_succ, Nat.mul_comm (16 ^ w) 16, Nat.mod_mul,
      Nat.mul_comm, Nat.add_comm]

theorem hexValue?_lt {c : Char} {n : Nat} (h : hexValue? c = some n) : n < 16 := by
  simp only [hexValue?, Char.le_def, UInt32.le_iff_toNat_le] at h
  have code : c.val.toNat = c.toNat := rfl
  split at h
  · next le =>
    have high : c.toNat ≤ 57 := le.2
    cases h; omega
  · split at h
    · next le =>
      have high : c.toNat ≤ 102 := le.2
      cases h; omega
    · split at h
      · next le =>
        have high : c.toNat ≤ 70 := le.2
        cases h; omega
      · cases h

theorem ofHex?_lt {cs : List Char} {n : Nat} (h : ofHex? cs = some n) : n < 16 ^ cs.length := by
  induction cs using List.reverseRecOn generalizing n with
  | nil => cases h; decide
  | append_singleton cs c ih =>
    rw [ofHex?_append_singleton] at h
    obtain ⟨m, first, last⟩ := Option.bind_eq_some_iff.mp h
    obtain ⟨d, digit, rfl⟩ := Option.map_eq_some_iff.mp last
    have := ih first
    have := hexValue?_lt digit
    rw [List.length_append, List.length_singleton, Nat.pow_succ]
    omega

/-! ## Hyphens -/

theorem unhyphenate?_hyphenate (gs : List Nat) {cs : List Char} (h : cs.length = gs.sum) :
    unhyphenate? gs (hyphenate gs cs) = some cs := by
  induction gs generalizing cs with
  | nil =>
    rw [List.sum_nil, List.length_eq_zero_iff] at h
    subst h
    rfl
  | cons n rest ih =>
    rw [List.sum_cons] at h
    cases rest with
    | nil => rw [hyphenate, unhyphenate?, if_pos (by simpa using h)]
    | cons m rest =>
      have len : (cs.take n).length = n := by rw [List.length_take]; omega
      have tail := ih (show (cs.drop n).length = _ by rw [List.length_drop]; omega)
      rw [hyphenate, unhyphenate?, List.drop_left' len, List.take_left' len]
      · simp only [tail, Option.map_some, List.take_append_drop]
      all_goals simp

theorem length_hyphenate (n : Nat) (gs : List Nat) {cs : List Char} (h : cs.length = (n :: gs).sum) :
    (hyphenate (n :: gs) cs).length = cs.length + gs.length := by
  induction gs generalizing n cs with
  | nil => rfl
  | cons m rest ih =>
    rw [List.sum_cons] at h
    have tail := ih m (show (cs.drop n).length = _ by rw [List.length_drop]; omega)
    rw [hyphenate, List.length_append, List.length_cons, tail, List.length_take, List.length_drop,
      List.length_cons]
    · omega
    · simp

theorem length_unhyphenate? {gs : List Nat} {cs ds : List Char} (h : unhyphenate? gs cs = some ds) :
    ds.length = gs.sum := by
  fun_induction unhyphenate? gs cs generalizing ds with
  | case1 => cases h; rfl
  | case2 => cases h
  | case3 cs => cases h; simp
  | case4 => cases h
  | case5 n rest cs _ tail found ih =>
    obtain ⟨es, tail, rfl⟩ := Option.map_eq_some_iff.mp h
    have long : n ≤ cs.length := by
      have := congrArg List.length found
      simp at this
      omega
    rw [List.length_append, ih tail, List.length_take, Nat.min_eq_left long, List.sum_cons]
  | case6 => cases h

/-! ## Ids -/

/-- An id of 128 bits, as all in circulation are. -/
def Fits (id : Id) : Prop := id.value < 2 ^ 128

instance (id : Id) : Decidable id.Fits := inferInstanceAs (Decidable (_ < _))

theorem length_text (id : Id) : id.text.length = 36 := by
  rw [text, groups, length_hyphenate] <;> simp

theorem parse?_text {id : Id} (h : id.Fits) : parse? id.text = some id := by
  have value : id.value % 16 ^ 32 = id.value := Nat.mod_eq_of_lt (by unfold Fits at h; omega)
  have digits : unhyphenate? groups id.text = some (hexDigits 32 id.value) :=
    unhyphenate?_hyphenate groups (by simp [groups])
  rw [parse?, length_text, if_neg (by decide), if_pos rfl, parseGrouped?, digits, Option.bind_some,
    ofHex?_hexDigits, value, Option.map_some]

/-- An id that is read from a text has 128 bits. -/
theorem fits_of_parse? {cs : List Char} {id : Id} (h : parse? cs = some id) : id.Fits := by
  have grouped {cs : List Char} (h : parseGrouped? cs = some id) : id.Fits := by
    obtain ⟨n, read, rfl⟩ := Option.map_eq_some_iff.mp h
    obtain ⟨ds, digits, hex⟩ := Option.bind_eq_some_iff.mp read
    have := ofHex?_lt hex
    rwa [length_unhyphenate? digits] at this
  unfold parse? at h
  split at h
  · next len =>
    obtain ⟨n, hex, rfl⟩ := Option.map_eq_some_iff.mp h
    have := ofHex?_lt hex
    rwa [len] at this
  · split at h
    · exact grouped h
    · split at h
      · exact grouped h
      · split at h
        · exact grouped h
        · cases h

theorem toList_toString (id : Id) : (toString id).toList = id.text := by
  change (String.ofList id.text).toList = id.text
  exact String.toList_ofList

theorem Fits.eq_of_text {a b : Id} (ha : a.Fits) (hb : b.Fits) (h : toString a = toString b) :
    a = b := by
  have same : a.text = b.text := by rw [← toList_toString, h, toList_toString]
  have read := parse?_text ha
  rw [same, parse?_text hb] at read
  exact (Option.some.inj read).symm

end UsageDiary.Id
