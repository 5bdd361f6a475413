import UsageDiary.Id
import UsageDiary.Json.Value
import UsageDiary.Text.Digits

/-!
# Reading JSON

A text is read as one JSON value with blanks around it. A control character
inside a string and a leading zero are refused. A string in which half of a
surrogate pair is alone is no text, but it can be passed over: it is kept as
written, and so is an object with such a name.
-/

namespace UsageDiary.Json

/-- The blanks that may stand between the parts of a JSON text. -/
def skipSpace (cs : List Char) : List Char :=
  cs.dropWhile fun c => c == ' ' || c == '\n' || c == '\t' || c == '\r'

/-- What one character or escape of a string stands for. -/
inductive StringUnit where
  | char (c : Char)
  /-- Half of a surrogate pair. -/
  | half (value : Nat)

/-- Where the reader stands inside a string. -/
inductive StringState where
  | plain
  /-- After a backslash. -/
  | escape
  /-- Inside an escape with `left` hexadecimal digits to come. -/
  | hex (left : Nat) (value : Nat)

/-- The character of a short escape. -/
def shortEscape? : Char → Option Char
  | '"' => some '"'
  | '\\' => some '\\'
  | '/' => some '/'
  | 'b' => some '\x08'
  | 'f' => some '\x0c'
  | 'n' => some '\n'
  | 'r' => some '\r'
  | 't' => some '\t'
  | _ => none

/-- What an escape of four digits stands for. -/
def StringUnit.ofValue (value : Nat) : StringUnit :=
  if 0xD800 ≤ value ∧ value < 0xE000 then .half value else .char (Char.ofNat value)

/-- Reads the rest of a string, up to its closing quote. -/
def stringRest (state : StringState) : List Char → Option (List StringUnit × List Char)
  | [] => none
  | c :: rest =>
    match state with
    | .plain =>
      if c = '"' then some ([], rest)
      else if c = '\\' then stringRest .escape rest
      else if c.toNat < 32 then none
      else (stringRest .plain rest).map fun (us, tail) => (.char c :: us, tail)
    | .escape =>
      if c = 'u' then stringRest (.hex 4 0) rest
      else match shortEscape? c with
        | some e => (stringRest .plain rest).map fun (us, tail) => (.char e :: us, tail)
        | none => none
    | .hex left value =>
      match Id.hexValue? c with
      | none => none
      | some d =>
        if 1 < left then stringRest (.hex (left - 1) (value * 16 + d)) rest
        else (stringRest .plain rest).map fun (us, tail) =>
          (StringUnit.ofValue (value * 16 + d) :: us, tail)

/-- Joins the halves of surrogate pairs: `none` where a half is alone. -/
def joinPairs : List StringUnit → Option (List Char)
  | [] => some []
  | .char c :: rest => (joinPairs rest).map (c :: ·)
  | .half high :: .half low :: rest =>
    if high < 0xDC00 ∧ 0xDC00 ≤ low then
      (joinPairs rest).map
        (Char.ofNat (0x10000 + (high - 0xD800) * 0x400 + (low - 0xDC00)) :: ·)
    else none
  | .half _ :: _ => none

/-- Reads a string from its opening quote on: `some none` stands for one
that is no text because half of a surrogate pair is alone in it. -/
def readString : List Char → Option (Option String × List Char)
  | '"' :: rest =>
    (stringRest .plain rest).map fun (us, tail) => ((joinPairs us).map String.ofList, tail)
  | _ => none

/-- Splits off the leading digits. -/
def digits (cs : List Char) : List Char × List Char := cs.span Text.isDigit

/-- Reads the fraction of a number, if there is one. -/
def readFraction : List Char → Option (List Char × List Char)
  | '.' :: rest =>
    let (ds, tail) := digits rest
    if ds.isEmpty then none else some ('.' :: ds, tail)
  | rest => some ([], rest)

/-- Reads the digits of an exponent after its letter and sign. -/
def readExponentDigits (lead cs : List Char) : Option (List Char × List Char) :=
  let (ds, tail) := digits cs
  if ds.isEmpty then none else some (lead ++ ds, tail)

/-- Reads the exponent of a number, if there is one. -/
def readExponent : List Char → Option (List Char × List Char)
  | e :: rest =>
    if e = 'e' ∨ e = 'E' then
      match rest with
      | '+' :: tail => readExponentDigits [e, '+'] tail
      | '-' :: tail => readExponentDigits [e, '-'] tail
      | tail => readExponentDigits [e] tail
    else some ([], e :: rest)
  | [] => some ([], [])

/-- Reads a number without its sign. -/
def readMagnitude (negative : Bool) (cs : List Char) : Option (Json × List Char) := do
  let (whole, rest) := digits cs
  if whole.isEmpty ∨ (whole.head? = some '0' ∧ 1 < whole.length) then none
  else
    let (fraction, rest) ← readFraction rest
    let (exponent, rest) ← readExponent rest
    if negative then
      return (number (String.ofList ('-' :: whole ++ fraction ++ exponent)), rest)
    else if fraction.isEmpty ∧ exponent.isEmpty then
      return (natural (Text.digitsValue whole), rest)
    else return (number (String.ofList (whole ++ fraction ++ exponent)), rest)

/-- Reads a word that stands for a value. -/
def readWord (word : String) (value : Json) (cs : List Char) : Option (Json × List Char) :=
  if word.toList.isPrefixOf cs then some (value, cs.drop word.length) else none

/-- Reads the items of an array after its opening bracket. -/
def readItems (read : List Char → Option (Json × List Char)) :
    Nat → List Char → Option (List Json × List Char)
  | 0, _ => none
  | fuel + 1, cs =>
    match read cs with
    | none => none
    | some (v, rest) =>
      match skipSpace rest with
      | ']' :: tail => some ([v], tail)
      | ',' :: tail => (readItems read fuel tail).map fun (vs, tail) => (v :: vs, tail)
      | _ => none

/-- Reads the fields of an object after its opening brace. -/
def readFields (read : List Char → Option (Json × List Char)) :
    Nat → List Char → Option (List (Option String × Json) × List Char)
  | 0, _ => none
  | fuel + 1, cs =>
    match readString (skipSpace cs) with
    | none => none
    | some (k, rest) =>
      match skipSpace rest with
      | ':' :: rest =>
        match read rest with
        | none => none
        | some (v, rest) =>
          match skipSpace rest with
          | '\x7d' :: tail => some ([(k, v)], tail)
          | ',' :: tail => (readFields read fuel tail).map fun (kvs, tail) => ((k, v) :: kvs, tail)
          | _ => none
      | _ => none

/-- The part of a text that is before its `tail`, as it was written. -/
def rawBefore (cs tail : List Char) : Json :=
  raw (String.ofList (cs.take (cs.length - tail.length)))

/-- The string that was read between `cs` and `tail`. -/
def ofText (cs tail : List Char) : Option String → Json
  | some s => string s
  | none => rawBefore cs tail

/-- The object whose fields were read between `cs` and `tail`. -/
def ofFields (cs tail : List Char) (fields : List (Option String × Json)) : Json :=
  match fields.mapM fun (name, v) => name.map (·, v) with
  | some fields => object fields
  | none => rawBefore cs tail

/-- Reads a value at the start of a text of fewer than `fuel` characters. -/
def readValue : Nat → List Char → Option (Json × List Char)
  | 0, _ => none
  | fuel + 1, cs =>
    match skipSpace cs with
    | '"' :: rest =>
      (readString ('"' :: rest)).map fun (s, tail) => (ofText ('"' :: rest) tail s, tail)
    | '[' :: rest =>
      match skipSpace rest with
      | ']' :: tail => some (array [], tail)
      | _ => (readItems (readValue fuel) fuel rest).map fun (vs, tail) => (array vs, tail)
    | '\x7b' :: rest =>
      match skipSpace rest with
      | '\x7d' :: tail => some (object [], tail)
      | _ =>
        (readFields (readValue fuel) fuel rest).map fun (kvs, tail) =>
          (ofFields ('\x7b' :: rest) tail kvs, tail)
    | '-' :: rest => readMagnitude true rest
    | 'n' :: rest => readWord "null" null ('n' :: rest)
    | 't' :: rest => readWord "true" (bool true) ('t' :: rest)
    | 'f' :: rest => readWord "false" (bool false) ('f' :: rest)
    | rest => readMagnitude false rest

/-- Reads a text that is one JSON value. -/
def parse? (cs : List Char) : Option Json :=
  match readValue (cs.length + 1) cs with
  | some (v, rest) => if (skipSpace rest).isEmpty then some v else none
  | none => none

end UsageDiary.Json
