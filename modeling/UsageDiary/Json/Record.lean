import UsageDiary.Calendar.InstantText
import UsageDiary.Id
import UsageDiary.Json.Value

/-!
# Records in JSON

A record is an object with named fields or an array of its fields in order.
In an object a known field may not repeat, unknown ones are passed over, and
an optional one may be absent or `null`. An array has no field too many and
may leave out only trailing fields that have a default.
-/

namespace UsageDiary.Json

/-- The value of a field that may not repeat: `none` where it repeats, and
`some none` where it is absent. -/
def field? (name : String) (fields : List (String × Json)) : Option (Option Json) :=
  match fields.filter (·.1 == name) with
  | [] => some none
  | [(_, v)] => some (some v)
  | _ => none

/-- The fields of a record by name. An array has to hold the first `least` of
them. -/
def record? (names : List String) (least : Nat) : Json → Option (List (Option Json))
  | object fields => names.mapM fun name => field? name fields
  | array items =>
    if least ≤ items.length ∧ items.length ≤ names.length then
      some (items.map some ++ List.replicate (names.length - items.length) none)
    else none
  | _ => none

/-- A field that has to be there. -/
def required? {α : Type} (read : Json → Option α) (v : Option Json) : Option α := v.bind read

/-- A field that may be absent or `null`. -/
def optional? {α : Type} (read : Json → Option α) : Option Json → Option (Option α)
  | none | some null => some none
  | some v => (read v).map some

/-- A string. -/
def string? : Json → Option String
  | string s => some s
  | _ => none

/-- A number written with digits alone, at most `most`. -/
def natural? (most : Nat) : Json → Option Nat
  | natural n => if n ≤ most then some n else none
  | _ => none

/-- An array of values that can each be read. -/
def array? {α : Type} (read : Json → Option α) : Json → Option (List α)
  | array items => items.mapM read
  | _ => none

/-- An id as a string. -/
def id? (v : Json) : Option Id := v.string?.bind fun s => Id.parse? s.toList

/-- An instant as a string. -/
def instant? (v : Json) : Option Instant := v.string?.bind fun s => Instant.parse? s.toList

/-- A date as a string. -/
def date? (v : Json) : Option Date := v.string?.bind fun s => Date.parseLoose? s.toList

/-- One of a few words: alone, or as the name of a single field that is
`null`. -/
def word? {α : Type} (ofWord? : String → Option α) : Json → Option α
  | string s => ofWord? s
  | object [(s, null)] => ofWord? s
  | _ => none

/-- An id. -/
def ofId (id : Id) : Json := string (toString id)

/-- An instant. -/
def ofInstant (t : Instant) : Json := string (String.ofList t.text)

/-- A date. -/
def ofDate (d : Date) : Json := string (toString d)

end UsageDiary.Json
