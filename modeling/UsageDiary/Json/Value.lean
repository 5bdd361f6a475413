/-!
# JSON values

A JSON value as it was written: the fields of an object keep their order
and may repeat, and a number written with digits alone is told apart from
every other number, which is kept as text.
-/

namespace UsageDiary

/-- A JSON value. -/
inductive Json where
  | null
  | bool (b : Bool)
  /-- A number written with digits alone. -/
  | natural (n : Nat)
  /-- Any other number, as written. -/
  | number (text : String)
  | string (s : String)
  | array (items : List Json)
  | object (fields : List (String × Json))
  /-- A string or an object kept as written, because half of a surrogate pair
  is alone in it. -/
  | raw (text : String)

namespace Json

/-- An integer. -/
def int (n : Int) : Json :=
  if 0 ≤ n then natural n.toNat else number ("-" ++ toString n.natAbs)

/-- A value, or `null` where there is none. -/
def nullable {α : Type} (f : α → Json) : Option α → Json
  | some a => f a
  | none => null

end Json
end UsageDiary
