/-!
# Log events

What the library reports while it works: a level, a message and named
fields. Fields are texts, integers or truth values.
-/

namespace UsageDiary

/-- How important a log event is. -/
inductive LogLevel where
  | trace
  | debug
  | info
  | warn
  | error
deriving DecidableEq

/-- The word for a level. -/
def LogLevel.word : LogLevel → String
  | trace => "TRACE"
  | debug => "DEBUG"
  | info => "INFO"
  | warn => "WARN"
  | error => "ERROR"

/-- The value of a field of a log event. -/
inductive LogValue where
  | text (s : String)
  | int (n : Int)
  | bool (b : Bool)
deriving DecidableEq

/-- One report. -/
structure LogEvent where
  level : LogLevel
  message : String
  fields : List (String × LogValue) := []
deriving DecidableEq

namespace LogValue

/-- The text of a value as a field. -/
def shown {α : Type} [ToString α] (a : α) : LogValue := text (toString a)

end LogValue
end UsageDiary
