import UsageDiary.Json.Value
import UsageDiary.Text.Digits

/-!
# Bounds of JSON values

Where a value is held before its type is known, every string in it has to be
a text, its arrays and objects may nest only so deep, and every number in it
has to stay finite when it is taken as a binary number of 53 digits. The
number is taken in two steps: as many of its decimal digits as fit 64 bits
make a whole number, which is then multiplied by a power of ten, and both
factors and the product are rounded. Main statement: rounding changes nothing
up to 53 binary digits (`nearest_of_lt`).
-/

namespace UsageDiary.Json

/-- The largest number of 64 bits. -/
def largestWord : Nat := 18446744073709551615

/-- Appends digits to a number as long as it fits 64 bits; also gives the
digits that are left. -/
def appendDigits : Nat → List Char → Nat × List Char
  | n, [] => (n, [])
  | n, c :: cs =>
    if n * 10 + Text.digitValue c ≤ largestWord then appendDigits (n * 10 + Text.digitValue c) cs
    else (n, c :: cs)

/-- The power of ten that an exponent writes, from its letter on. -/
def exponentValue : List Char → Int
  | _ :: '-' :: ds => -(Text.digitsValue ds : Int)
  | _ :: '+' :: ds => Text.digitsValue ds
  | _ :: ds => Text.digitsValue ds
  | [] => 0

/-- A number without its sign as a whole number and a power of ten. Whole
digits that do not fit count by their number alone, those of the fraction not
at all. -/
def scaled (cs : List Char) : Nat × Int :=
  let (whole, rest) := cs.span Text.isDigit
  let (n, beyond) := appendDigits 0 whole
  match rest with
  | '.' :: rest =>
    let (fraction, exponent) := rest.span Text.isDigit
    let (n, left) := appendDigits n fraction
    (n, beyond.length - (fraction.length - left.length) + exponentValue exponent)
  | exponent => (n, beyond.length + exponentValue exponent)

/-- The nearest number of 53 binary digits; of two the even one. -/
def nearest (n : Nat) : Nat :=
  let unit := Nat.pow 2 (n.log2 - 52)
  let below := n / unit
  let beyond := 2 * (n % unit)
  if unit < beyond ∨ (beyond = unit ∧ below % 2 = 1) then (below + 1) * unit else below * unit

/-- A number of 53 binary digits is its own nearest. -/
theorem nearest_of_lt {n : Nat} (h : n.log2 < 53) : nearest n = n := by
  have hlog : n.log2 - 52 = 0 := by omega
  simp [nearest, hlog, Nat.mod_one]

/-- The least number that counts as infinite: half a step above the largest
finite one. -/
def infinite : Nat := Nat.pow 2 1024 - Nat.pow 2 970

/-- The largest power of ten that is finite. -/
def mostTens : Int := 308

/-- A whole number times a power of ten stays finite. -/
def isFinite (n : Nat) (tens : Int) : Bool :=
  n = 0 || tens < 0 || (tens ≤ mostTens && nearest n * nearest (Nat.pow 10 tens.toNat) < infinite)

/-- A number as written stays finite. -/
def isFiniteText (cs : List Char) : Bool :=
  let (n, tens) := scaled (if cs.head? = some '-' then cs.drop 1 else cs)
  isFinite n tens

/-- How deep arrays and objects may nest. -/
def mostNesting : Nat := 127

mutual

/-- A value keeps to the bounds, with so many levels of nesting left. -/
def isBounded : Nat → Json → Bool
  | _, natural n => isFiniteText (Text.decimal n)
  | _, number text => isFiniteText text.toList
  | 0, array _ => false
  | levels + 1, array items => itemsBounded levels items
  | 0, object _ => false
  | levels + 1, object fields => fieldsBounded levels fields
  | _, raw _ => false
  | _, _ => true

/-- All of some values keep to the bounds. -/
def itemsBounded : Nat → List Json → Bool
  | _, [] => true
  | levels, v :: rest => isBounded levels v && itemsBounded levels rest

/-- The values of all of some fields keep to the bounds. -/
def fieldsBounded : Nat → List (String × Json) → Bool
  | _, [] => true
  | levels, (_, v) :: rest => isBounded levels v && fieldsBounded levels rest

end

end UsageDiary.Json
