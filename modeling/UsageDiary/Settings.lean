import UsageDiary.Calendar.Instant
import UsageDiary.Error
import UsageDiary.Text.Blank
import UsageDiary.Text.Digits

/-!
# Settings

The windows and limits of an analysis, which are unsigned numbers of 64
bits: their defaults, the checks across them, and reading them from the
environment. A number of milliseconds beyond 63 bits wraps around when it
becomes a length of time; the one number that no length of time holds has
none. Main statement: settings that pass the checks have a window for
skipping below the one for combining (`Settings.skip_lt_combine`).
-/

namespace UsageDiary

/-- When a broken no-go goal is notified: at every change of an activity, or
only when one is created. -/
inductive ConflictPolicy where
  | onEveryChange
  | onNewActivity
deriving DecidableEq

/-- The word for a policy. -/
def ConflictPolicy.word : ConflictPolicy → String
  | onEveryChange => "on_every_change"
  | onNewActivity => "on_new_activity"

/-- The policy that a word names. -/
def ConflictPolicy.ofWord? : String → Option ConflictPolicy
  | "on_every_change" => some onEveryChange
  | "on_new_activity" => some onNewActivity
  | _ => none

/-- The settings of an analysis. -/
structure Settings where
  /-- The longest gap between two events of one activity. -/
  combineMillis : Nat := 900000
  /-- The least growth of an activity that is kept. -/
  skipMillis : Nat := 5000
  /-- The largest offset of a device's clock that is taken for noise. -/
  skewToleranceMillis : Nat := 10000
  /-- The least length of a new activity. -/
  minimumMillis : Nat := 60000
  /-- How many characters of an address are kept. -/
  maxUrlLength : Nat := 2048
  policy : ConflictPolicy := .onEveryChange
  databaseUrl : String := "sqlite::memory:"
  logLevel : String := "info"
deriving DecidableEq

/-- The largest unsigned number of 64 bits. -/
def maxWord : Nat := 18446744073709551615

namespace Settings

/-- A day in milliseconds. -/
def dayMillis : Nat := 86400000

/-- The first check that settings fail, if any. -/
def validate (s : Settings) : Except SettingsError Unit :=
  if s.combineMillis = 0 then .error (.combineInterval (toString s.combineMillis))
  else if s.combineMillis ≤ s.skipMillis then
    .error (.skipWindowNotBelowCombineInterval s.skipMillis s.combineMillis)
  else if s.minimumMillis = 0 ∨ dayMillis ≤ s.minimumMillis then
    .error (.minimumDuration (toString s.minimumMillis))
  else if s.maxUrlLength = 0 then .error (.maxUrlLength (toString s.maxUrlLength))
  else if s.databaseUrl.isEmpty then .error .emptyDatabaseUrl
  else .ok ()

theorem skip_lt_combine {s : Settings} (h : s.validate = .ok ()) :
    s.skipMillis < s.combineMillis := by
  unfold validate at h
  split at h
  · cases h
  · split at h
    · cases h
    · omega

theorem minimum_of_checked {s : Settings} (h : s.validate = .ok ()) :
    0 < s.minimumMillis ∧ s.minimumMillis < dayMillis := by
  unfold validate at h
  repeat' split at h
  all_goals first | omega | cases h

/-- A number of milliseconds of 64 bits as a length of time. -/
def millis? (n : Nat) : Option Duration :=
  if n < 9223372036854775808 then some (Duration.ofMillis n)
  else if n = 9223372036854775808 then none
  else some (Duration.ofMillis ((n : Int) - 18446744073709551616))

/-- The longest gap between two events of one activity. -/
def combineInterval? (s : Settings) : Option Duration := millis? s.combineMillis

/-- The least growth of an activity that is kept. -/
def skipWindow? (s : Settings) : Option Duration := millis? s.skipMillis

/-- The largest offset of a device's clock that is taken for noise. -/
def clockSkewTolerance? (s : Settings) : Option Duration := millis? s.skewToleranceMillis

/-- The least length of a new activity. -/
def minimumDuration? (s : Settings) : Option Duration := millis? s.minimumMillis

/-- Reads a number of 64 bits with blanks around it and a plus sign allowed. -/
def word? (raw : String) : Option Nat :=
  let digits := match Text.trim raw.toList with
    | '+' :: rest => rest
    | rest => rest
  (Text.natural? digits).filter (· ≤ maxWord)

/-- Reads a number of seconds, as milliseconds of 64 bits. -/
def secondsAsMillis? (raw : String) : Option Nat :=
  (word? raw).bind fun n => if n * 1000 ≤ maxWord then some (n * 1000) else none

/-- The variables that settings are read from. -/
inductive Variable where
  | combineIntervalSeconds
  | skipWindowSeconds
  | clockSkewToleranceSeconds
  | minimumActivitySeconds
  | maxUrlLength
  | conflictPolicy
  | databaseUrl
  | logLevel
deriving DecidableEq

namespace Variable

/-- The variables in the order they are read. -/
def all : List Variable :=
  [combineIntervalSeconds, skipWindowSeconds, clockSkewToleranceSeconds, minimumActivitySeconds,
    maxUrlLength, conflictPolicy, databaseUrl, logLevel]

/-- The name of a variable without the prefix that all of them share. -/
def name : Variable → String
  | combineIntervalSeconds => "COMBINE_INTERVAL_SECONDS"
  | skipWindowSeconds => "SKIP_WINDOW_SECONDS"
  | clockSkewToleranceSeconds => "CLOCK_SKEW_TOLERANCE_SECONDS"
  | minimumActivitySeconds => "MINIMUM_ACTIVITY_SECONDS"
  | maxUrlLength => "MAX_URL_LENGTH"
  | conflictPolicy => "CONFLICT_POLICY"
  | databaseUrl => "DATABASE_URL"
  | logLevel => "LOG_LEVEL"

/-- The setting of a variable, put over other settings. -/
def apply (s : Settings) (raw : String) : Variable → Except SettingsError Settings
  | combineIntervalSeconds => match secondsAsMillis? raw with
    | some n => .ok { s with combineMillis := n }
    | none => .error (.combineInterval raw)
  | skipWindowSeconds => match secondsAsMillis? raw with
    | some n => .ok { s with skipMillis := n }
    | none => .error (.skipWindow raw)
  | clockSkewToleranceSeconds => match secondsAsMillis? raw with
    | some n => .ok { s with skewToleranceMillis := n }
    | none => .error (.clockSkewTolerance raw)
  | minimumActivitySeconds => match secondsAsMillis? raw with
    | some n => .ok { s with minimumMillis := n }
    | none => .error (.minimumDuration raw)
  | maxUrlLength => match word? raw with
    | some n => .ok { s with maxUrlLength := n }
    | none => .error (.maxUrlLength raw)
  | conflictPolicy => match ConflictPolicy.ofWord? (Text.trimmed raw) with
    | some p => .ok { s with policy := p }
    | none => .error (.conflictPolicy raw)
  | databaseUrl => .ok { s with databaseUrl := raw }
  | logLevel => .ok { s with logLevel := raw }

end Variable

/-- Reads settings from the variables that are set, over the defaults. -/
def ofEnvironment (lookup : Variable → Option String) : Except SettingsError Settings := do
  let s ← Variable.all.foldlM (fun s v => match lookup v with
    | some raw => v.apply s raw
    | none => .ok s) {}
  s.validate
  return s

/-- The database address without what may be secret in it. -/
def maskedDatabaseUrl (s : Settings) : String :=
  let cs := s.databaseUrl.toList
  if "sqlite:".toList.isPrefixOf cs then s.databaseUrl
  else match scheme? cs with
    | some scheme => String.ofList scheme ++ "://***"
    | none => "***"
where
  /-- What stands before the first `://`. -/
  scheme? : List Char → Option (List Char)
    | [] => none
    | c :: rest =>
      if "://".toList.isPrefixOf (c :: rest) then some [] else (scheme? rest).map (c :: ·)

/-- The report of the settings, a line for each. -/
def logEvents (s : Settings) : List LogEvent :=
  ["Configuration loaded:",
    "  Combine interval: " ++ toString s.combineMillis ++ "ms",
    "  Skip window: " ++ toString s.skipMillis ++ "ms",
    "  Clock skew tolerance: " ++ toString s.skewToleranceMillis ++ "ms",
    "  Minimum activity duration: " ++ toString s.minimumMillis ++ "ms",
    "  Max URL length: " ++ toString s.maxUrlLength,
    "  Conflict policy: " ++ s.policy.word,
    "  Database URL: " ++ s.maskedDatabaseUrl,
    "  Log level: " ++ s.logLevel].map fun line => ⟨.info, line, []⟩

end Settings
end UsageDiary
