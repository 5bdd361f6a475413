import UsageDiary.Calendar.Date
import UsageDiary.Text.Blank
import UsageDiary.Text.Digits

/-!
# Dates as text

A date is written `YYYY-MM-DD`; a year outside 0 to 9999 carries its sign
and has at least four digits. Reading takes one or two digits for month and
day, up to four for a year without a sign, and blanks before each number.
The loose form also takes blanks before each dash and after the date.
-/

namespace UsageDiary

open Text

/-- A year: four digits, with a sign outside 0 to 9999. -/
def yearText (year : Int) : List Char :=
  if year < 0 then '-' :: padded 4 year.natAbs
  else if 9999 < year then '+' :: padded 4 year.natAbs
  else padded 4 year.natAbs

namespace Date

/-- The written form of a date. -/
def text (d : Date) : List Char :=
  yearText d.year ++ '-' :: padded 2 d.month ++ '-' :: padded 2 d.dayOfMonth

instance : ToString Date := ⟨fun d => String.ofList d.text⟩

/-- Reads a year: up to four digits, or a sign and any number of digits. -/
def scanYear (cs : List Char) : Option (Int × List Char) :=
  match skipBlanks cs with
  | '-' :: rest => (leading? rest.length rest).map fun (n, rest) => (-(n : Int), rest)
  | '+' :: rest => (leading? rest.length rest).map fun (n, rest) => ((n : Int), rest)
  | rest => (leading? 4 rest).map fun (n, rest) => ((n : Int), rest)

/-- Reads a dash and a number of one or two digits. -/
def scanPart (loose : Bool) (cs : List Char) : Option (Nat × List Char) :=
  match if loose then skipBlanks cs else cs with
  | '-' :: rest => leading? 2 (skipBlanks rest)
  | _ => none

/-- Reads a date at the start of a text. -/
def scan (loose : Bool) (cs : List Char) : Option (Date × List Char) := do
  let (year, rest) ← scanYear cs
  let (month, rest) ← scanPart loose rest
  let (day, rest) ← scanPart loose rest
  let date ← ofCivil? year month day
  return (date, rest)

/-- Reads a text that is a date and nothing else. -/
def parse? (cs : List Char) : Option Date :=
  match scan false cs with
  | some (date, []) => some date
  | _ => none

/-- Reads a date, with blanks allowed before each part and at the end. -/
def parseLoose? (cs : List Char) : Option Date :=
  match scan true cs with
  | some (date, rest) => if (skipBlanks rest).isEmpty then some date else none
  | none => none

end Date
end UsageDiary
