import UsageDiary.Calendar.InstantText
import UsageDiary.Id
import UsageDiary.Log
import UsageDiary.Zone.Basic

/-!
# Errors

What can go wrong, by cause. Every cause has one wording, and every error
of an analysis a code for callers. An error is the server's unless the
input or a time zone is at fault (`AnalysisError.isServerError`).
-/

namespace UsageDiary

/-- Why settings are refused. -/
inductive SettingsError where
  | combineInterval (value : String)
  | skipWindow (value : String)
  | clockSkewTolerance (value : String)
  | minimumDuration (value : String)
  | maxUrlLength (value : String)
  | conflictPolicy (value : String)
  | skipWindowNotBelowCombineInterval (skip combine : Nat)
  | emptyDatabaseUrl
deriving DecidableEq

/-- The wording of a settings error. -/
def SettingsError.message : SettingsError → String
  | combineInterval value => "Invalid combine interval: " ++ value
  | skipWindow value => "Invalid skip window: " ++ value
  | clockSkewTolerance value => "Invalid clock skew tolerance: " ++ value
  | minimumDuration value => "Invalid minimum activity duration: " ++ value
  | maxUrlLength value => "Invalid max URL length: " ++ value
  | conflictPolicy value =>
    "Invalid conflict policy: " ++ value ++ " (expected on_every_change or on_new_activity)"
  | skipWindowNotBelowCombineInterval skip combine =>
    "Skip window " ++ toString skip ++ "ms is not below combine interval " ++ toString combine ++ "ms"
  | emptyDatabaseUrl => "Empty database URL"

/-- The code of a settings error. -/
def SettingsError.code : SettingsError → String
  | combineInterval _ => "InvalidCombineInterval"
  | skipWindow _ => "InvalidSkipWindow"
  | clockSkewTolerance _ => "InvalidClockSkewTolerance"
  | minimumDuration _ => "InvalidMinimumDuration"
  | maxUrlLength _ => "InvalidMaxUrlLength"
  | conflictPolicy _ => "InvalidConflictPolicy"
  | skipWindowNotBelowCombineInterval _ _ => "SkipWindowNotBelowCombineInterval"
  | emptyDatabaseUrl => "EmptyDatabaseUrl"

/-- Why a store call failed: a record that cannot be understood, a record
whose JSON cannot be read, or the database itself. -/
inductive StoreError where
  | corrupt (reason : String)
  | serialization
  | database
deriving DecidableEq

/-- The code of a store error. -/
def StoreError.code : StoreError → String
  | corrupt _ => "CorruptRecord"
  | serialization => "Serialization"
  | database => "Database"

/-- The wording of a store error. The last two kinds leave the details to
whoever reports them. -/
def StoreError.message : StoreError → String
  | corrupt reason => "Corrupt record: " ++ reason
  | serialization => "Serialization error"
  | database => "Database error"

/-- A rule of the days and weeks that a call would have broken. -/
inductive Violation where
  | outsideDay (starts ends : Instant) (date : Date) (day : Id)
  | missingActivity (activity : Id) (date : Date)
  | pastEndOfDay (ends : Instant) (date : Date)
  | foreignDay (day week : Id)
  | outsideWeek (date weekStart : Date)
  | noDayFor (instant : Instant)
  | other (text : String)
deriving DecidableEq

/-- The wording of a violation. -/
def Violation.message : Violation → String
  | outsideDay starts ends date day =>
    "activity " ++ starts.message ++ ".." ++ ends.message ++ " outside day " ++ toString date ++
      " of aggregate " ++ toString day
  | missingActivity activity date =>
    "activity " ++ toString activity ++ " missing from day " ++ toString date
  | pastEndOfDay ends date =>
    "extension to " ++ ends.message ++ " crosses the end of day " ++ toString date
  | foreignDay day week =>
    "day activity " ++ toString day ++ " belongs to another user or goal than week " ++ toString week
  | outsideWeek date weekStart =>
    "day " ++ toString date ++ " outside week starting " ++ toString weekStart
  | noDayFor instant => "no day aggregate can take an event at " ++ instant.message
  | other text => text

/-- The report of a violation. -/
def Violation.logEvent (v : Violation) : LogEvent :=
  ⟨.error, "Invariant violation detected", [("violation", .text v.message)]⟩

/-- What a collaborator says of its failure: the root cause and the
contexts put around it, innermost first. -/
structure Causes where
  root : String
  contexts : List String := []
deriving DecidableEq

/-- The outermost context first, each followed by a colon and the next. -/
def Causes.message (c : Causes) : String :=
  c.contexts.foldl (fun inner outer => outer ++ ": " ++ inner) c.root

/-- Why an analysis failed. -/
inductive AnalysisError where
  | storage (e : StoreError)
  | goalLookup (causes : Causes)
  | messaging (causes : Causes)
  | invalidInput (reason : String)
  | zone (e : ZoneError)
  | violation (v : Violation)
  | settings (e : SettingsError)
deriving DecidableEq

namespace AnalysisError

/-- The code of an error. -/
def code : AnalysisError → String
  | storage _ => "StorageError"
  | goalLookup _ => "GoalLookupError"
  | messaging _ => "MessagingError"
  | invalidInput _ => "InvalidInput"
  | zone _ => "TimezoneError"
  | violation _ => "InternalError"
  | settings _ => "ConfigurationError"

/-- The wording of an error. -/
def message : AnalysisError → String
  | storage e => "Storage error: " ++ e.message
  | goalLookup causes => "Goal lookup failed: " ++ causes.message
  | messaging causes => "Message dispatch failed: " ++ causes.message
  | invalidInput reason => "Invalid input: " ++ reason
  | zone e => "Timezone error: " ++ e.message
  | violation v => "Invariant violation: " ++ v.message
  | settings e => "Configuration error: " ++ e.message

/-- An error that the caller can do nothing about. -/
def isServerError : AnalysisError → Bool
  | invalidInput _ | zone _ => false
  | _ => true

end AnalysisError
end UsageDiary
