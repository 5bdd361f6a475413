/-!
# Decimal digits

Numbers written in decimal and read back. `padded w n` writes at least `w`
digits, `natural?` reads a text of digits alone. Main statements: a number
below ten is the value of its digit (`digitValue_digit`), and `w` digits
carry a number up to multiples of `10 ^ w` (`digitsValue_fixedDigits`).
-/

namespace UsageDiary.Text

/-- The value of an ASCII digit. -/
def digitValue (c : Char) : Nat := c.toNat - '0'.toNat

/-- An ASCII digit. -/
def isDigit (c : Char) : Bool := '0' ≤ c && c ≤ '9'

/-- The number whose decimal digits are `cs`, most significant first. -/
def digitsValue (cs : List Char) : Nat := cs.foldl (fun n c => n * 10 + digitValue c) 0

/-- The digit of a number below ten. -/
def digit (n : Nat) : Char := Char.ofNat ('0'.toNat + n)

theorem digitValue_digit {n : Nat} (h : n < 10) : digitValue (digit n) = n := by
  have all : ∀ m : Fin 10, digitValue (digit m) = m := by decide
  exact all ⟨n, h⟩

theorem isDigit_digit {n : Nat} (h : n < 10) : isDigit (digit n) = true := by
  have all : ∀ m : Fin 10, isDigit (digit m) = true := by decide
  exact all ⟨n, h⟩

/-- The last `w` decimal digits of a number, most significant first. -/
def fixedDigits : Nat → Nat → List Char
  | 0, _ => []
  | w + 1, n => fixedDigits w (n / 10) ++ [digit (n % 10)]

theorem digitsValue_append_singleton (cs : List Char) (c : Char) :
    digitsValue (cs ++ [c]) = digitsValue cs * 10 + digitValue c := by
  simp [digitsValue]

theorem digitsValue_fixedDigits (w n : Nat) : digitsValue (fixedDigits w n) = n % Nat.pow 10 w := by
  induction w generalizing n with
  | zero => simp [fixedDigits, digitsValue, Nat.mod_one]
  | succ w ih =>
    rw [fixedDigits, digitsValue_append_singleton, ih, digitValue_digit (Nat.mod_lt _ (by decide))]
    change _ = n % (Nat.pow 10 w * 10)
    rw [Nat.mul_comm (Nat.pow 10 w) 10, Nat.mod_mul, Nat.mul_comm]
    omega

/-- How many decimal digits a number has; zero has one. -/
def digitCount (n : Nat) : Nat := if n < 10 then 1 else digitCount (n / 10) + 1
termination_by n

/-- A number in decimal, with leading zeros up to `w` digits. -/
def padded (w n : Nat) : List Char := fixedDigits (max w (digitCount n)) n

/-- A number in decimal, without leading zeros. -/
def decimal (n : Nat) : List Char := padded 1 n

/-- Reads a text that consists of digits alone. -/
def natural? (cs : List Char) : Option Nat :=
  if cs.isEmpty || !cs.all isDigit then none else some (digitsValue cs)

/-- Splits off the leading digits, at most `most` of them. -/
def takeDigits (most : Nat) (cs : List Char) : List Char × List Char :=
  let ds := (cs.take most).takeWhile isDigit
  (ds, cs.drop ds.length)

/-- Reads between one and `most` leading digits. -/
def leading? (most : Nat) (cs : List Char) : Option (Nat × List Char) :=
  let (ds, rest) := takeDigits most cs
  if ds.isEmpty then none else some (digitsValue ds, rest)

end UsageDiary.Text
