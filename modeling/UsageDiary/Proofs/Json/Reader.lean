import Mathlib.Data.List.TakeDrop
import UsageDiary.Json.Reader
import UsageDiary.Json.Writer
import UsageDiary.Proofs.Text.Decimal
import UsageDiary.Proofs.Text.Hexadecimal

/-!
# JSON texts read back

The compact text of a value is read as that value (`Json.parse?_text`), if
the value holds nothing that is kept as it was written (`Json.Plain`). Each
reader takes the text that its writer gives at the start of any text, and
leaves what is behind: characters of strings (`Json.stringRest_escaped`),
strings (`Json.readString_quoted`), numbers (`Json.readMagnitude_decimal`),
items and fields, and by induction on how far the reader may go, values
(`Json.readValue_text`).
-/

namespace UsageDiary.Json

open Text (isDigit decimal)

/-! ## Strings -/

theorem hexDigits_four (n : Nat) : Id.hexDigits 4 n =
    [Id.hexDigit (n / 16 / 16 / 16 % 16), Id.hexDigit (n / 16 / 16 % 16), Id.hexDigit (n / 16 % 16),
      Id.hexDigit (n % 16)] := rfl

theorem stringRest_hex_succ {left value d : Nat} (hd : d < 16) (rest : List Char) :
    stringRest (.hex (left + 2) value) (Id.hexDigit d :: rest) =
      stringRest (.hex (left + 1) (value * 16 + d)) rest := by
  rw [stringRest, Id.hexValue?_hexDigit hd]
  simp

theorem stringRest_hex_one {value d : Nat} (hd : d < 16) (rest : List Char) :
    stringRest (.hex 1 value) (Id.hexDigit d :: rest) =
      (stringRest .plain rest).map fun (us, tail) =>
        (StringUnit.ofValue (value * 16 + d) :: us, tail) := by
  rw [stringRest, Id.hexValue?_hexDigit hd]
  simp

/-- An escape of four digits is read as the number it writes. -/
theorem stringRest_unicode {n : Nat} (h : n < 65536) (rest : List Char) :
    stringRest .plain ('\\' :: 'u' :: (Id.hexDigits 4 n ++ rest)) =
      (stringRest .plain rest).map fun (us, tail) => (StringUnit.ofValue n :: us, tail) := by
  have value : (((0 * 16 + n / 16 / 16 / 16 % 16) * 16 + n / 16 / 16 % 16) * 16 + n / 16 % 16) * 16 +
      n % 16 = n := by omega
  have backslash : stringRest .plain ('\\' :: 'u' :: (Id.hexDigits 4 n ++ rest)) =
      stringRest (.hex 4 0) (Id.hexDigits 4 n ++ rest) := by simp [stringRest]
  rw [backslash, hexDigits_four, List.cons_append, List.cons_append, List.cons_append, List.cons_append,
    List.nil_append, stringRest_hex_succ (Nat.mod_lt _ (by decide)),
    stringRest_hex_succ (Nat.mod_lt _ (by decide)), stringRest_hex_succ (Nat.mod_lt _ (by decide)),
    stringRest_hex_one (Nat.mod_lt _ (by decide)), value]

theorem stringRest_short {c e : Char} (hu : c ≠ 'u') (h : shortEscape? c = some e) (rest : List Char) :
    stringRest .plain ('\\' :: c :: rest) =
      (stringRest .plain rest).map fun (us, tail) => (.char e :: us, tail) := by
  rw [stringRest, if_neg (by decide), if_pos rfl, stringRest]
  simp only [if_neg hu, h]

/-- A character as it is written in a string is read as that character. -/
theorem stringRest_escaped (c : Char) (rest : List Char) :
    stringRest .plain (escaped c ++ rest) =
      (stringRest .plain rest).map fun (us, tail) => (.char c :: us, tail) := by
  unfold escaped
  by_cases short : c ∈ ['"', '\\', '\x08', '\x0c', '\n', '\r', '\t']
  · simp only [List.mem_cons, List.not_mem_nil, or_false] at short
    rcases short with rfl | rfl | rfl | rfl | rfl | rfl | rfl <;>
      exact stringRest_short (by decide) rfl rest
  · simp only [List.mem_cons, List.not_mem_nil, or_false, not_or] at short
    obtain ⟨quote, backslash, b, f, n, r, t⟩ := short
    rw [if_neg quote, if_neg backslash, if_neg b, if_neg f, if_neg n, if_neg r, if_neg t]
    split
    · next control =>
      have unit : StringUnit.ofValue c.toNat = .char c := by
        rw [StringUnit.ofValue, if_neg (by omega), Char.ofNat_toNat]
      rw [List.cons_append, List.cons_append, stringRest_unicode (by omega), unit]
    · next printable =>
      rw [List.singleton_append, stringRest, if_neg quote, if_neg backslash, if_neg printable]

theorem stringRest_quote (cs rest : List Char) :
    stringRest .plain (cs.flatMap escaped ++ '"' :: rest) = some (cs.map .char, rest) := by
  induction cs with
  | nil => simp [stringRest]
  | cons c cs ih =>
    rw [List.flatMap_cons, List.append_assoc, stringRest_escaped, ih, Option.map_some, List.map_cons]

theorem joinPairs_map_char (cs : List Char) : joinPairs (cs.map .char) = some cs := by
  induction cs with
  | nil => rfl
  | cons c cs ih => rw [List.map_cons, joinPairs, ih, Option.map_some]

theorem readString_quoted (s : String) (rest : List Char) :
    readString (quoted s ++ rest) = some (some s, rest) := by
  have shape : quoted s ++ rest = '"' :: (s.toList.flatMap escaped ++ '"' :: rest) := by simp [quoted]
  rw [shape, readString, stringRest_quote]
  simp [joinPairs_map_char]

/-! ## Numbers -/

/-- A text that does not go on with a part of a number. -/
def NumberEnds (cs : List Char) : Prop :=
  ∀ c ∈ cs.head?, isDigit c = false ∧ c ≠ '.' ∧ c ≠ 'e' ∧ c ≠ 'E'

theorem numberEnds_nil : NumberEnds [] := nofun

theorem numberEnds_cons {c : Char} (h : isDigit c = false ∧ c ≠ '.' ∧ c ≠ 'e' ∧ c ≠ 'E')
    (cs : List Char) : NumberEnds (c :: cs) := by
  simpa [NumberEnds] using h

theorem NumberEnds.digits_append {ds rest : List Char} (h : NumberEnds rest)
    (all : ∀ c ∈ ds, isDigit c = true) : digits (ds ++ rest) = (ds, rest) := by
  have stops : rest.takeWhile isDigit = [] ∧ rest.dropWhile isDigit = rest := by
    cases rest with
    | nil => exact ⟨rfl, rfl⟩
    | cons c rest =>
      have first : ¬ isDigit c = true := by simp [(h c rfl).1]
      exact ⟨List.takeWhile_cons_of_neg first, List.dropWhile_cons_of_neg first⟩
  rw [digits, List.span_eq_takeWhile_dropWhile, List.takeWhile_append_of_pos all,
    List.dropWhile_append_of_pos all, stops.1, stops.2, List.append_nil]

theorem NumberEnds.readFraction {rest : List Char} (h : NumberEnds rest) :
    readFraction rest = some ([], rest) := by
  unfold Json.readFraction
  split
  · next tail => exact absurd rfl (h '.' rfl).2.1
  · rfl

theorem NumberEnds.readExponent {rest : List Char} (h : NumberEnds rest) :
    readExponent rest = some ([], rest) := by
  cases rest with
  | nil => rfl
  | cons c rest =>
    obtain ⟨-, -, small, large⟩ := h c rfl
    simp only [Json.readExponent, small, large, or_self, if_false]

theorem readMagnitude_decimal (n : Nat) {rest : List Char} (h : NumberEnds rest) :
    readMagnitude false (decimal n ++ rest) = some (natural n, rest) := by
  have all : ∀ c ∈ decimal n, isDigit c = true := fun _ => Text.isDigit_of_mem_padded
  have some : decimal n ≠ [] := Text.padded_ne_nil 1 n
  have lead : ¬ ((decimal n).isEmpty = true ∨ (decimal n).head? = Option.some '0' ∧
      1 < (decimal n).length) := by
    rintro (empty | ⟨zero, long⟩)
    · exact some (List.isEmpty_iff.mp empty)
    · have n0 : n = 0 := Classical.not_not.mp fun ne => Text.head?_decimal ne zero
      rw [n0, Text.decimal_of_lt (by decide)] at long
      exact absurd long (by decide)
  have value : Text.digitsValue (decimal n) = n := Text.digitsValue_padded 1 n
  simp only [readMagnitude, h.digits_append all, if_neg lead, h.readFraction, h.readExponent,
    Option.bind_eq_bind, Option.bind_some, Bool.false_eq_true, if_false, List.isEmpty_nil, and_self,
    if_true, value, Option.pure_def]

/-! ## The starts of values -/

/-- A text that starts with the first character of a value. -/
def Opens (cs : List Char) : Prop :=
  ∃ c rest, cs = c :: rest ∧ (c ∈ ['"', '[', '\x7b', 'n', 't', 'f'] ∨ isDigit c = true)

theorem Opens.append {cs : List Char} (h : Opens cs) (rest : List Char) : Opens (cs ++ rest) := by
  obtain ⟨c, tail, rfl, hc⟩ := h
  exact ⟨c, tail ++ rest, rfl, hc⟩

theorem not_space_of_digit {c : Char} (h : isDigit c = true) :
    (c == ' ' || c == '\n' || c == '\t' || c == '\r') = false := by
  simp only [Bool.or_eq_false_iff, beq_eq_false_iff_ne]
  refine ⟨⟨⟨?_, ?_⟩, ?_⟩, ?_⟩ <;> (rintro rfl; exact absurd h (by decide))

theorem skipSpace_cons {c : Char} (h : (c == ' ' || c == '\n' || c == '\t' || c == '\r') = false)
    (cs : List Char) : skipSpace (c :: cs) = c :: cs := by
  rw [skipSpace, List.dropWhile_cons_of_neg]
  simpa using h

/-- No blank, bracket or brace comes before the value. -/
theorem Opens.skipSpace {cs : List Char} (h : Opens cs) :
    Json.skipSpace cs = cs ∧ ∀ tail, cs ≠ ']' :: tail ∧ cs ≠ '\x7d' :: tail := by
  obtain ⟨c, rest, rfl, mem | digit⟩ := h
  · simp only [List.mem_cons, List.not_mem_nil, or_false] at mem
    rcases mem with rfl | rfl | rfl | rfl | rfl | rfl <;>
      exact ⟨skipSpace_cons (by decide) rest, fun tail => ⟨by simp, by simp⟩⟩
  · refine ⟨skipSpace_cons (not_space_of_digit digit) rest, fun tail => ⟨?_, ?_⟩⟩ <;>
      (rintro ⟨⟩; exact absurd digit (by decide))

mutual

/-- A value with nothing in it that is kept as it was written. -/
def Plain : Json → Prop
  | null | bool _ | natural _ | string _ => True
  | number _ | raw _ => False
  | array items => ItemsPlain items
  | object fields => FieldsPlain fields

/-- All of some values are plain. -/
def ItemsPlain : List Json → Prop
  | [] => True
  | v :: rest => Plain v ∧ ItemsPlain rest

/-- The values of all of some fields are plain. -/
def FieldsPlain : List (String × Json) → Prop
  | [] => True
  | (_, v) :: rest => Plain v ∧ FieldsPlain rest

end

theorem itemsPlain_iff {items : List Json} : ItemsPlain items ↔ ∀ v ∈ items, Plain v := by
  induction items with
  | nil => simp [ItemsPlain]
  | cons v rest ih => simp [ItemsPlain, ih]

theorem fieldsPlain_iff {fields : List (String × Json)} :
    FieldsPlain fields ↔ ∀ f ∈ fields, Plain f.2 := by
  induction fields with
  | nil => simp [FieldsPlain]
  | cons f rest ih => simp [FieldsPlain, ih]

theorem opens_text {v : Json} (h : v.Plain) : Opens v.text := by
  cases v with
  | null => exact ⟨'n', _, rfl, .inl (by decide)⟩
  | bool b =>
    cases b
    · exact ⟨'f', _, rfl, .inl (by decide)⟩
    · exact ⟨'t', _, rfl, .inl (by decide)⟩
  | natural n =>
    obtain ⟨d, ds, hd⟩ := List.exists_cons_of_ne_nil (Text.padded_ne_nil 1 n)
    refine ⟨d, ds, by rw [text, Text.toList_toString, decimal, hd], .inr ?_⟩
    exact Text.isDigit_of_mem_padded (hd ▸ List.mem_cons_self)
  | string s => exact ⟨'"', _, rfl, .inl (by decide)⟩
  | array items => exact ⟨'[', _, rfl, .inl (by decide)⟩
  | object fields => exact ⟨'\x7b', _, rfl, .inl (by decide)⟩
  | number t => exact h.elim
  | raw t => exact h.elim

/-! ## Items and fields -/

/-- A mark that ends a number and is no blank. -/
def Closes (cs : List Char) : Prop := NumberEnds cs ∧ skipSpace cs = cs

theorem closes_comma (cs : List Char) : Closes (',' :: cs) :=
  ⟨numberEnds_cons (by decide) cs, skipSpace_cons (by decide) cs⟩

theorem closes_colon (cs : List Char) : Closes (':' :: cs) :=
  ⟨numberEnds_cons (by decide) cs, skipSpace_cons (by decide) cs⟩

theorem closes_bracket (cs : List Char) : Closes (']' :: cs) :=
  ⟨numberEnds_cons (by decide) cs, skipSpace_cons (by decide) cs⟩

theorem closes_brace (cs : List Char) : Closes ('\x7d' :: cs) :=
  ⟨numberEnds_cons (by decide) cs, skipSpace_cons (by decide) cs⟩

/-- The reader takes the text of a value at the start of any text that does
not go on with a number. -/
def Reads (read : List Char → Option (Json × List Char)) (v : Json) : Prop :=
  ∀ rest, NumberEnds rest → read (v.text ++ rest) = some (v, rest)

variable {read : List Char → Option (Json × List Char)} {fuel : Nat}

theorem readItems_text (rest : List Char) {items : List Json} (reads : ∀ v ∈ items, Reads read v) (some : items ≠ [])
    (few : items.length ≤ fuel) :
    readItems read fuel (itemsText items ++ ']' :: rest) = .some (items, rest) := by
  induction items generalizing fuel with
  | nil => exact absurd rfl some
  | cons v items ih =>
    obtain ⟨fuel, rfl⟩ : ∃ n, fuel = n + 1 := ⟨fuel - 1, by simp only [List.length_cons] at few; omega⟩
    have value := reads v List.mem_cons_self
    cases items with
    | nil =>
      rw [itemsText, readItems, value _ (closes_bracket rest).1]
      simp only [(closes_bracket rest).2]
    | cons w items =>
      have tail := ih (fun u hu => reads u (List.mem_cons_of_mem v hu)) (List.cons_ne_nil _ _)
        (Nat.le_of_succ_le_succ few)
      rw [itemsText, List.append_assoc, List.cons_append, readItems,
        value _ (closes_comma _).1]
      · simp only [(closes_comma _).2, tail, Option.map_some]
      · simp

theorem readFields_text (rest : List Char) {fields : List (String × Json)} (reads : ∀ f ∈ fields, Reads read f.2)
    (some : fields ≠ []) (few : fields.length ≤ fuel) :
    readFields read fuel (fieldsText fields ++ '\x7d' :: rest) =
      .some (fields.map fun f => (.some f.1, f.2), rest) := by
  induction fields generalizing fuel with
  | nil => exact absurd rfl some
  | cons f fields ih =>
    obtain ⟨k, v⟩ := f
    obtain ⟨fuel, rfl⟩ : ∃ n, fuel = n + 1 := ⟨fuel - 1, by simp only [List.length_cons] at few; omega⟩
    have value := reads (k, v) List.mem_cons_self
    have name (cs : List Char) : readString (skipSpace (quoted k ++ cs)) = .some (.some k, cs) := by
      have opens : Opens (quoted k ++ cs) := ⟨'"', _, rfl, .inl (by decide)⟩
      rw [opens.skipSpace.1, readString_quoted]
    cases fields with
    | nil =>
      rw [fieldsText, List.append_assoc, List.cons_append, readFields, name]
      simp only [(closes_colon _).2, value _ (closes_brace rest).1, (closes_brace rest).2, List.map_cons,
        List.map_nil]
    | cons g fields =>
      have tail := ih (fun u hu => reads u (List.mem_cons_of_mem _ hu)) (List.cons_ne_nil _ _)
        (Nat.le_of_succ_le_succ few)
      rw [fieldsText, List.append_assoc, List.cons_append, List.append_assoc, List.cons_append,
        readFields, name]
      · simp only [(closes_colon _).2, value _ (closes_comma _).1, (closes_comma _).2, tail,
          Option.map_some, List.map_cons]
      · simp

theorem ofFields_names (cs tail : List Char) (fields : List (String × Json)) :
    ofFields cs tail (fields.map fun f => (some f.1, f.2)) = object fields := by
  have named : (fields.map fun f => (some f.1, f.2)).mapM
      (fun f : Option String × Json => f.1.map (·, f.2)) = some fields := by
    induction fields with
    | nil => rfl
    | cons f fields ih => simp [ih]
  unfold ofFields
  split
  · next read eq => rw [Option.some.inj (eq.symm.trans named)]
  · next eq => cases eq.symm.trans named

/-! ## Values -/

theorem length_le_itemsText (items : List Json) : items.length ≤ (itemsText items).length + 1 := by
  induction items with
  | nil => exact Nat.zero_le _
  | cons v rest ih =>
    cases rest with
    | nil => simp
    | cons w rest =>
      rw [itemsText]
      · simp only [List.length_append, List.length_cons] at *
        omega
      · simp

theorem length_text_le_itemsText {items : List Json} {v : Json} (h : v ∈ items) :
    v.text.length ≤ (itemsText items).length := by
  induction items with
  | nil => cases h
  | cons u rest ih =>
    cases rest with
    | nil => exact Nat.le_of_eq (by rw [List.mem_singleton.mp h, itemsText])
    | cons w rest =>
      rw [itemsText, List.length_append, List.length_cons]
      · rcases List.mem_cons.mp h with rfl | h
        · omega
        · have := ih h
          omega
      · simp

theorem length_le_fieldsText (fields : List (String × Json)) :
    fields.length ≤ (fieldsText fields).length + 1 := by
  induction fields with
  | nil => exact Nat.zero_le _
  | cons f rest ih =>
    cases rest with
    | nil => simp
    | cons g rest =>
      rw [fieldsText]
      · simp only [List.length_append, List.length_cons] at *
        omega
      · simp

theorem length_text_le_fieldsText {fields : List (String × Json)} {f : String × Json}
    (h : f ∈ fields) : f.2.text.length ≤ (fieldsText fields).length := by
  induction fields with
  | nil => cases h
  | cons g rest ih =>
    cases rest with
    | nil =>
      rw [List.mem_singleton.mp h, fieldsText, List.length_append, List.length_cons]
      omega
    | cons w rest =>
      rw [fieldsText, List.length_append, List.length_cons, List.length_append, List.length_cons]
      · rcases List.mem_cons.mp h with rfl | h
        · omega
        · have := ih h
          omega
      · simp

theorem opens_itemsText {items : List Json} (plain : ItemsPlain items) (some : items ≠ []) :
    Opens (itemsText items) := by
  obtain ⟨v, rest, rfl⟩ := List.exists_cons_of_ne_nil some
  have opens := opens_text plain.1
  cases rest with
  | nil => exact opens
  | cons w rest => exact opens.append _

theorem opens_fieldsText {fields : List (String × Json)} (some : fields ≠ []) :
    Opens (fieldsText fields) := by
  obtain ⟨⟨k, v⟩, rest, rfl⟩ := List.exists_cons_of_ne_nil some
  cases rest <;> exact ⟨'"', _, rfl, .inl (by decide)⟩

/-- A text that starts with a digit is read as a number. -/
theorem readValue_digit {c : Char} (h : isDigit c = true) (fuel : Nat) (cs : List Char) :
    readValue (fuel + 1) (c :: cs) = readMagnitude false (c :: cs) := by
  rw [readValue, skipSpace_cons (not_space_of_digit h)]
  split
  case h_8 => rfl
  all_goals (next eq => cases eq; exact absurd h (by decide))

/-- An array is read if its items are. -/
theorem readValue_array {items : List Json} (plain : ItemsPlain items)
    (reads : ∀ v ∈ items, Reads (readValue fuel) v) (few : items.length ≤ fuel) (rest : List Char) :
    readValue (fuel + 1) ((array items).text ++ rest) = some (array items, rest) := by
  have shape : (array items).text ++ rest = '[' :: (itemsText items ++ ']' :: rest) := by
    simp [text]
  rw [shape, readValue, skipSpace_cons (by decide)]
  rcases Classical.em (items = []) with rfl | some
  · simp [itemsText, (closes_bracket rest).2]
  · obtain ⟨here, other⟩ := ((opens_itemsText plain some).append (']' :: rest)).skipSpace
    simp only [here]
    split
    · next tail eq => exact absurd eq (other tail).1
    · rw [readItems_text rest reads some few, Option.map_some]

/-- An object is read if the values of its fields are. -/
theorem readValue_object {fields : List (String × Json)}
    (reads : ∀ f ∈ fields, Reads (readValue fuel) f.2) (few : fields.length ≤ fuel)
    (rest : List Char) :
    readValue (fuel + 1) ((object fields).text ++ rest) = some (object fields, rest) := by
  have shape : (object fields).text ++ rest = '\x7b' :: (fieldsText fields ++ '\x7d' :: rest) := by
    simp [text]
  rw [shape, readValue, skipSpace_cons (by decide)]
  rcases Classical.em (fields = []) with rfl | some
  · simp [fieldsText, (closes_brace rest).2]
  · obtain ⟨here, other⟩ := ((opens_fieldsText some).append ('\x7d' :: rest)).skipSpace
    simp only [here]
    split
    · next tail eq => exact absurd eq (other tail).2
    · rw [readFields_text rest reads some few, Option.map_some, ofFields_names]

/-- A plain value is read from its text by a reader that may go far enough. -/
theorem readValue_text {v : Json} (h : v.Plain) {fuel : Nat} (enough : v.text.length < fuel) :
    Reads (readValue fuel) v := by
  -- Items and fields are read with less fuel, and their texts are shorter.
  induction fuel generalizing v with
  | zero => omega
  | succ fuel ih =>
    intro rest ends
    cases v with
    | null => rfl
    | bool b => cases b <;> rfl
    | natural n =>
      obtain ⟨d, ds, hd⟩ := List.exists_cons_of_ne_nil (Text.padded_ne_nil 1 n)
      have digit : isDigit d = true := Text.isDigit_of_mem_padded (hd ▸ List.mem_cons_self)
      have read := readMagnitude_decimal n ends
      rw [text, Text.toList_toString]
      rw [decimal, hd, List.cons_append] at read ⊢
      rw [readValue_digit digit, read]
    | number t => exact h.elim
    | string s =>
      have read := readString_quoted s rest
      have shape : quoted s ++ rest = '"' :: (s.toList.flatMap escaped ++ ['"'] ++ rest) := rfl
      rw [shape] at read
      rw [text, shape, readValue, skipSpace_cons (by decide)]
      simp only [read, Option.map_some, ofText]
    | array items =>
      rw [text, List.length_append, List.length_cons, List.length_singleton] at enough
      refine readValue_array h (fun w hw => ih (itemsPlain_iff.mp h w hw) ?_) ?_ rest
      · have := length_text_le_itemsText hw
        omega
      · have := length_le_itemsText items
        omega
    | object fields =>
      rw [text, List.length_append, List.length_cons, List.length_singleton] at enough
      refine readValue_object (fun f hf => ih (fieldsPlain_iff.mp h f hf) ?_) ?_ rest
      · have := length_text_le_fieldsText hf
        omega
      · have := length_le_fieldsText fields
        omega
    | raw t => exact h.elim

/-- A plain value is read from its text. -/
theorem parse?_text {v : Json} (h : v.Plain) : parse? v.text = some v := by
  have read := readValue_text h (Nat.lt_succ_self v.text.length) [] numberEnds_nil
  rw [List.append_nil] at read
  rw [parse?, read]
  rfl

end UsageDiary.Json
