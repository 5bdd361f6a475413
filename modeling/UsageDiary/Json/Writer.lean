import UsageDiary.Id
import UsageDiary.Json.Value

/-!
# Writing JSON

The compact text of a JSON value. Quotes, backslashes and control
characters are escaped, the latter by a short escape where there is one.
-/

namespace UsageDiary.Json

/-- A character inside a string. -/
def escaped (c : Char) : List Char :=
  if c = '"' then ['\\', '"']
  else if c = '\\' then ['\\', '\\']
  else if c = '\x08' then ['\\', 'b']
  else if c = '\x0c' then ['\\', 'f']
  else if c = '\n' then ['\\', 'n']
  else if c = '\r' then ['\\', 'r']
  else if c = '\t' then ['\\', 't']
  else if c.toNat < 32 then '\\' :: 'u' :: Id.hexDigits 4 c.toNat
  else [c]

/-- A string in quotes. -/
def quoted (s : String) : List Char := '"' :: s.toList.flatMap escaped ++ ['"']

mutual

/-- The compact text of a value. -/
def text : Json → List Char
  | null => "null".toList
  | bool b => if b then "true".toList else "false".toList
  | natural n => (toString n).toList
  | number t => t.toList
  | string s => quoted s
  | array items => '[' :: itemsText items ++ [']']
  | object fields => '\x7b' :: fieldsText fields ++ ['\x7d']
  | raw t => t.toList

/-- The texts of the items of an array, with commas between. -/
def itemsText : List Json → List Char
  | [] => []
  | [v] => v.text
  | v :: rest => v.text ++ ',' :: itemsText rest

/-- The texts of the fields of an object, with commas between. -/
def fieldsText : List (String × Json) → List Char
  | [] => []
  | [(k, v)] => quoted k ++ ':' :: v.text
  | (k, v) :: rest => quoted k ++ ':' :: v.text ++ ',' :: fieldsText rest

end

/-- The compact text of a value, as a string. -/
def render (v : Json) : String := String.ofList v.text

end UsageDiary.Json
