import UsageDiary.Calendar.DateText
import UsageDiary.Calendar.Instant

/-!
# Instants as text

An instant is written in universal time as `2025-01-07T10:00:00Z`, and in
messages as `2025-01-07 10:00:00 UTC`. The fraction has no, three, six or
nine digits, the fewest that are exact, and a leap second is second 60.

Reading takes the date in its loose form, `T`, `t` or a blank, a time with
its seconds, and an offset: `Z`, `UTC` or a signed number of hours and
minutes. Digits past the ninth of the fraction are cut off.
-/

namespace UsageDiary

open Text

namespace Instant

/-- The date of an instant in universal time. -/
def date (t : Instant) : Date :=
  ⟨t.second / 86400, by have := t.lower; omega, by have := t.upper; omega⟩

/-- The fraction of a second with the fewest of 0, 3, 6 or 9 digits. -/
def fractionText (nano : Nat) : List Char :=
  if nano = 0 then []
  else if nano % 1000000 = 0 then '.' :: padded 3 (nano / 1000000)
  else if nano % 1000 = 0 then '.' :: padded 6 (nano / 1000)
  else '.' :: padded 9 nano

/-- The time of day, `hh:mm:ss` with its fraction; a leap second is `:60`. -/
def timeText (t : Instant) : List Char :=
  let s := t.secondOfDay.toNat
  let leap := t.nano / 1000000000
  padded 2 (s / 3600) ++ ':' :: padded 2 (s / 60 % 60) ++ ':' :: padded 2 (s % 60 + leap) ++
    fractionText (t.nano % 1000000000)

/-- The written form of an instant. -/
def text (t : Instant) : List Char := t.date.text ++ 'T' :: t.timeText ++ ['Z']

/-- The form of an instant inside messages. -/
def message (t : Instant) : String :=
  String.ofList (t.date.text ++ ' ' :: t.timeText ++ [' ', 'U', 'T', 'C'])

/-- Reads a colon and a number of one or two digits, with blanks around the
colon. -/
def scanMinor (cs : List Char) : Option (Nat × List Char) :=
  match skipBlanks cs with
  | ':' :: rest => leading? 2 (skipBlanks rest)
  | _ => none

/-- Reads the fraction of a second, in nanoseconds. -/
def scanFraction (cs : List Char) : Option (Nat × List Char) :=
  match cs with
  | '.' :: rest =>
    let (digits, rest) := takeDigits 9 rest
    if digits.isEmpty then none
    else some (digitsValue digits * Nat.pow 10 (9 - digits.length), rest.dropWhile isDigit)
  | rest => some (0, rest)

/-- A time of day: its second, and the nanoseconds into it. -/
structure TimeOfDay where
  second : Nat
  nano : Nat

/-- Reads a time of day. Second 60 is the leap second after second 59. -/
def scanTime (cs : List Char) : Option (TimeOfDay × List Char) := do
  let (hour, rest) ← leading? 2 (skipBlanks cs)
  let (minute, rest) ← scanMinor rest
  let (second, rest) ← scanMinor rest
  let (nano, rest) ← scanFraction rest
  if 24 ≤ hour ∨ 60 ≤ minute ∨ 61 ≤ second then none
  else if second = 60 then
    return (⟨hour * 3600 + minute * 60 + 59, 1000000000 + nano⟩, rest)
  else return (⟨hour * 3600 + minute * 60 + second, nano⟩, rest)

/-- Reads two digits. -/
def scanTwoDigits : List Char → Option (Nat × List Char)
  | a :: b :: rest => if isDigit a && isDigit b then some (digitsValue [a, b], rest) else none
  | _ => none

/-- Reads an offset from universal time, in seconds. -/
def scanOffset (cs : List Char) : Option (Int × List Char) :=
  match cs with
  | 'Z' :: rest | 'z' :: rest => some (0, rest)
  | u :: t :: c :: rest =>
    if u.toUpper = 'U' ∧ t.toUpper = 'T' ∧ c.toUpper = 'C' then some (0, rest)
    else if u = '+' then hoursAndMinutes 1 (t :: c :: rest)
    else if u = '-' ∨ u = '−' then hoursAndMinutes (-1) (t :: c :: rest)
    else none
  | _ => none
where
  /-- Two digits of hours and two of minutes, with colons and blanks between. -/
  hoursAndMinutes (sign : Int) (cs : List Char) : Option (Int × List Char) := do
    let (hours, rest) ← scanTwoDigits cs
    let (minutes, rest) ← scanTwoDigits (rest.dropWhile fun c => c == ':' || isBlank c)
    if 60 ≤ minutes ∨ 24 ≤ hours then none
    else return (sign * (hours * 3600 + minutes * 60 : Nat), rest)

/-- Reads a text that is an instant. -/
def parse? (cs : List Char) : Option Instant := do
  let (date, rest) ← Date.scan true cs
  let rest ← match rest with
    | 'T' :: rest | 't' :: rest | ' ' :: rest => some rest
    | _ => none
  let (time, rest) ← scanTime rest
  let (offset, rest) ← scanOffset (skipBlanks rest)
  if (skipBlanks rest).isEmpty then
    ofParts? (date.day * 86400 + time.second - offset) time.nano
  else none

end Instant
end UsageDiary
