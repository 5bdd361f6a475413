import UsageDiary.Text.Digits

/-!
# Ids

Ids of users, goals, days and the like: numbers of 128 bits, written as 32
hexadecimal digits in groups of 8, 4, 4, 4 and 12. Reading also takes the
digits without hyphens, the grouped form in braces, and the grouped form
after `urn:uuid:`, in either case of letter.
-/

namespace UsageDiary

/-- An id. Ids in circulation have 128 bits. -/
structure Id where
  value : Nat
deriving DecidableEq

namespace Id

instance : LE Id := ⟨fun a b => a.value ≤ b.value⟩
instance : LT Id := ⟨fun a b => a.value < b.value⟩
instance (a b : Id) : Decidable (a ≤ b) := inferInstanceAs (Decidable (a.value ≤ b.value))
instance (a b : Id) : Decidable (a < b) := inferInstanceAs (Decidable (a.value < b.value))

/-- A hexadecimal digit, in lower case. -/
def hexDigit (n : Nat) : Char := if n < 10 then Char.ofNat (48 + n) else Char.ofNat (87 + n)

/-- The value of a hexadecimal digit of either case. -/
def hexValue? (c : Char) : Option Nat :=
  if '0' ≤ c ∧ c ≤ '9' then some (c.toNat - 48)
  else if 'a' ≤ c ∧ c ≤ 'f' then some (c.toNat - 87)
  else if 'A' ≤ c ∧ c ≤ 'F' then some (c.toNat - 55)
  else none

/-- The last `w` hexadecimal digits of a number. -/
def hexDigits : Nat → Nat → List Char
  | 0, _ => []
  | w + 1, n => hexDigits w (n / 16) ++ [hexDigit (n % 16)]

/-- The number that hexadecimal digits write. -/
def ofHex? (cs : List Char) : Option Nat :=
  cs.foldlM (fun n c => (hexValue? c).map (n * 16 + ·)) 0

/-- The lengths of the groups of digits. -/
def groups : List Nat := [8, 4, 4, 4, 12]

/-- Puts a hyphen between groups of digits of the given lengths. -/
def hyphenate : List Nat → List Char → List Char
  | [], cs => cs
  | [_], cs => cs
  | n :: rest, cs => cs.take n ++ '-' :: hyphenate rest (cs.drop n)

/-- Takes the hyphens out from between groups of the given lengths. -/
def unhyphenate? : List Nat → List Char → Option (List Char)
  | [], cs => if cs.isEmpty then some [] else none
  | [n], cs => if cs.length = n then some cs else none
  | n :: rest, cs =>
    match cs.drop n with
    | '-' :: tail => (unhyphenate? rest tail).map (cs.take n ++ ·)
    | _ => none

/-- The written form of an id. -/
def text (id : Id) : List Char := hyphenate groups (hexDigits 32 id.value)

instance : ToString Id := ⟨fun id => String.ofList id.text⟩

/-- Reads the grouped form. -/
def parseGrouped? (cs : List Char) : Option Id :=
  ((unhyphenate? groups cs).bind ofHex?).map Id.mk

/-- Reads an id in any of its forms. -/
def parse? (cs : List Char) : Option Id :=
  if cs.length = 32 then (ofHex? cs).map Id.mk
  else if cs.length = 36 then parseGrouped? cs
  else if cs.length = 38 ∧ cs.head? = some '\x7b' ∧ cs.getLast? = some '\x7d' then
    parseGrouped? (cs.drop 1).dropLast
  else if cs.length = 45 ∧ (cs.take 9).map Char.toLower = "urn:uuid:".toList then
    parseGrouped? (cs.drop 9)
  else none

end Id
end UsageDiary
