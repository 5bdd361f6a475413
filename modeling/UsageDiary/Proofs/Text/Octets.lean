import Mathlib.Data.String.Basic
import Mathlib.Tactic.SplitIfs
import UsageDiary.Database.Octets

/-!
# The order of octets

Texts sort by their octets in UTF-8 as they sort by their characters
(`Octets.ofString_lt_iff`), because a greater character has octets that sort
later, whatever stands behind them (`Octets.utf8EncodeChar_lt`).
-/

namespace UsageDiary.Octets

open String (utf8EncodeChar)

theorem ofNat_lt_iff {m n : Nat} (hm : m < 256) (hn : n < 256) :
    UInt8.ofNat m < UInt8.ofNat n ↔ m < n := by
  rw [UInt8.lt_iff_toNat_lt, UInt8.toNat_ofNat', UInt8.toNat_ofNat', Nat.mod_eq_of_lt hm,
    Nat.mod_eq_of_lt hn]

theorem ofNat_inj {m n : Nat} (hm : m < 256) (hn : n < 256) :
    UInt8.ofNat m = UInt8.ofNat n ↔ m = n := by
  rw [← UInt8.toNat_inj, UInt8.toNat_ofNat', UInt8.toNat_ofNat', Nat.mod_eq_of_lt hm,
    Nat.mod_eq_of_lt hn]

/-- The octets of a text are those of its characters, one after the other. -/
theorem ofString_eq (s : String) : ofString s = s.toList.flatMap utf8EncodeChar := by
  conv_lhs => rw [← String.ofList_toList (s := s)]
  rw [ofString, String.toUTF8_eq_toByteArray, String.toByteArray_ofList, List.utf8Encode,
    List.data_toByteArray, List.toList_toArray]

/-- The octets of a greater character sort later, whatever is behind. -/
theorem utf8EncodeChar_lt {c d : Char} (h : c < d) (xs ys : Octets) :
    utf8EncodeChar c ++ xs < utf8EncodeChar d ++ ys := by
  have lt : c.val.toNat < d.val.toNat := h
  have top : d.val.toNat < 1114112 := by
    rcases d.valid with v | ⟨-, v⟩
    · exact v.trans (by decide)
    · exact v
  simp only [utf8EncodeChar]
  -- A greater character has no fewer octets. More of them start with a greater one, and as many
  -- are compared digit by digit to the base 64.
  split_ifs <;> try omega
  all_goals
    simp (disch := omega) only [List.cons_append, List.nil_append, List.cons_lt_cons_iff,
      ofNat_lt_iff, ofNat_inj, Nat.mod_eq_of_lt]
    omega

theorem flatMap_utf8EncodeChar_lt {cs ds : List Char} (h : cs < ds) :
    cs.flatMap utf8EncodeChar < ds.flatMap utf8EncodeChar := by
  induction cs generalizing ds with
  | nil =>
    cases ds with
    | nil => exact absurd h (List.not_lt_nil _)
    | cons d ds =>
      obtain ⟨x, xs, first⟩ := List.exists_cons_of_ne_nil (String.utf8EncodeChar_ne_nil (c := d))
      rw [List.flatMap_cons, first]
      exact List.nil_lt_cons ..
  | cons c cs ih =>
    cases ds with
    | nil => exact absurd h (List.not_lt_nil _)
    | cons d ds =>
      rw [List.flatMap_cons, List.flatMap_cons]
      rcases List.cons_lt_cons_iff.mp h with lt | ⟨rfl, lt⟩
      · exact utf8EncodeChar_lt lt ..
      · exact List.append_left_lt (ih lt)

/-- Texts sort by their octets as they sort by their characters. -/
theorem ofString_lt_iff {s t : String} : ofString s < ofString t ↔ s < t := by
  have mono {s t : String} (h : s < t) : ofString s < ofString t := by
    rw [ofString_eq, ofString_eq]
    exact flatMap_utf8EncodeChar_lt (String.lt_iff.mp h)
  refine ⟨fun h => ?_, mono⟩
  rcases lt_trichotomy s t with lt | rfl | gt
  · exact lt
  · exact absurd h (List.lt_irrefl _)
  · exact absurd h (List.lt_asymm (mono gt))

end UsageDiary.Octets
