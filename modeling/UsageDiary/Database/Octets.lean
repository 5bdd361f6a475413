import UsageDiary.Id

/-!
# Octets

Texts as octets in UTF-8, and the percent signs that stand for octets in
addresses.
-/

namespace UsageDiary

/-- A text as octets. -/
abbrev Octets := List UInt8

namespace Octets

/-- The octets of a text. -/
def ofString (s : String) : Octets := s.toUTF8.data.toList

/-- The octets as characters, one each: words of ASCII read as they are. -/
def word (cs : Octets) : String := String.ofList (cs.map fun c => Char.ofNat c.toNat)

/-- The octets are a text in UTF-8. -/
def isText (cs : Octets) : Bool := (String.fromUTF8? ⟨cs.toArray⟩).isSome

/-- The percent sign. -/
def percent : UInt8 := '%'.toUInt8

/-- The value of a hexadecimal digit. -/
def hexValue? (c : UInt8) : Option Nat := Id.hexValue? (Char.ofNat c.toNat)

/-- A hexadecimal digit. -/
def hexDigit (n : Nat) : UInt8 := UInt8.ofNat (if n < 10 then 48 + n else 55 + n)

/-- Puts an octet in place of each percent sign with two digits. -/
def percentDecode : Octets → Octets
  | c :: high :: low :: rest =>
    if c = percent then
      match hexValue? high, hexValue? low with
      | some h, some l => UInt8.ofNat (h * 16 + l) :: percentDecode rest
      | _, _ => c :: percentDecode (high :: low :: rest)
    else c :: percentDecode (high :: low :: rest)
  | cs => cs

/-- A letter, a digit or one of `-._~`, which stand for themselves. -/
def isUnreserved (c : UInt8) : Bool :=
  let c := Char.ofNat c.toNat
  c.isAlphanum || c == '-' || c == '.' || c == '_' || c == '~'

/-- Puts a percent sign and two digits in place of each octet that is
reserved. -/
def percentEncode (cs : Octets) : Octets :=
  cs.flatMap fun c =>
    if isUnreserved c then [c] else [percent, hexDigit (c.toNat / 16), hexDigit (c.toNat % 16)]

/-- The parts between separators. -/
def split (sep : UInt8) : Octets → List Octets
  | [] => [[]]
  | c :: rest =>
    if c = sep then [] :: split sep rest
    else match split sep rest with
      | [] => [[c]]
      | part :: parts => (c :: part) :: parts

/-- What is before the first separator, and what is after it. -/
def cut (sep : UInt8) (cs : Octets) : Octets × Octets :=
  (cs.takeWhile (· ≠ sep), (cs.dropWhile (· ≠ sep)).drop 1)

/-- The named values of a list of parameters, as they are written: they are
separated by `&`, and each name ends at the first `=`. -/
def parameters (cs : Octets) : List (Octets × Octets) :=
  ((split '&'.toUInt8 cs).filter (!·.isEmpty)).map (cut '='.toUInt8)

end Octets
end UsageDiary
