import UsageDiary.Id
import UsageDiary.Text.Digits

/-!
# Switches

Options that are on or off. A value that starts with a digit is a number, of
which only the last eight bits count; any other value is on if it is one of
the words `on`, `yes` and `true`, in either case of letter. What follows a
number is passed over, and a number of more than 31 bits counts as zero.
-/

namespace UsageDiary.Switch

/-- A number of at most 31 bits, and zero for any other. -/
def bounded (n : Nat) : Nat := if n < 2147483648 then n else 0

/-- The value of the hexadecimal digits that a text starts with. -/
def hexPrefix (cs : List Char) : Nat :=
  (Id.ofHex? (cs.takeWhile fun c => (Id.hexValue? c).isSome)).getD 0

/-- The number that a text starts with: hexadecimal after `0x`, decimal
otherwise. -/
def number (cs : List Char) : Nat :=
  match cs with
  | '0' :: x :: digit :: rest =>
    if (x = 'x' ∨ x = 'X') ∧ (Id.hexValue? digit).isSome then bounded (hexPrefix (digit :: rest))
    else bounded (Text.digitsValue (cs.takeWhile Text.isDigit))
  | _ => bounded (Text.digitsValue (cs.takeWhile Text.isDigit))

/-- A value turns its option on. -/
def isOn (value : String) : Bool :=
  if (value.toList.head?.map Text.isDigit).getD false then number value.toList % 256 != 0
  else ["on", "yes", "true"].contains (value.map Char.toLower)

end UsageDiary.Switch
