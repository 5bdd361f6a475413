import UsageDiary.Json.Bounds
import UsageDiary.Json.Reader
import UsageDiary.Json.Record
import UsageDiary.Json.Writer
import UsageDiary.Notification
import UsageDiary.Report
import UsageDiary.Settings
import UsageDiary.User
import UsageDiary.Week

/-!
# JSON forms

How the types of the library are written as JSON values and read back, a
pair of functions for each type: `toJson` writes and `ofJson?` reads.
-/

namespace UsageDiary

open Json (required? optional? record? ofId ofInstant ofDate nullable)

/-- Reads a text as a value of a type. -/
def Json.decode? {α : Type} (ofJson? : Json → Option α) (text : String) : Option α :=
  (Json.parse? text.toList).bind ofJson?

namespace Activity

/-- The JSON form of an activity. -/
def toJson (a : Activity) : Json :=
  .object [("id", ofId a.id), ("start_time", ofInstant a.starts), ("end_time", ofInstant a.ends),
    ("device_id", nullable ofId a.device), ("app", nullable .string a.app)]

/-- Reads an activity. -/
def ofJson? (v : Json) : Option Activity := do
  let [id, starts, ends, device, app] ←
    record? ["id", "start_time", "end_time", "device_id", "app"] 5 v | none
  return {
    id := ← required? Json.id? id
    starts := ← required? Json.instant? starts
    ends := ← required? Json.instant? ends
    device := ← optional? Json.id? device
    app := ← optional? Json.string? app }

end Activity

namespace AppUse

/-- The JSON form of a use of an application. -/
def toJson (u : AppUse) : Json :=
  .object [("application", .string u.application), ("start_time", ofInstant u.starts),
    ("end_time", ofInstant u.ends)]

/-- Reads a use of an application. -/
def ofJson? (v : Json) : Option AppUse := do
  let [application, starts, ends] ← record? ["application", "start_time", "end_time"] 3 v | none
  return {
    application := ← required? Json.string? application
    starts := ← required? Json.instant? starts
    ends := ← required? Json.instant? ends }

end AppUse

namespace AppReport

/-- The JSON form of a device's report. -/
def toJson (r : AppReport) : Json :=
  .object [("device_date_time", ofInstant r.deviceTime), ("device_id", nullable ofId r.device),
    ("activities", .array (r.uses.map AppUse.toJson))]

/-- Reads a device's report. -/
def ofJson? (v : Json) : Option AppReport := do
  let [time, device, uses] ← record? ["device_date_time", "device_id", "activities"] 3 v | none
  return {
    deviceTime := ← required? Json.instant? time
    device := ← optional? Json.id? device
    uses := ← required? (Json.array? AppUse.ofJson?) uses }

end AppReport

namespace NetworkVisit

/-- The JSON form of a visit of the network. -/
def toJson (n : NetworkVisit) : Json :=
  .object [("categories", .array (n.categories.map .string)), ("url", .string n.url),
    ("event_time", nullable ofInstant n.time), ("device_id", nullable ofId n.device)]

/-- Reads a visit of the network; labels may repeat and come in any order. -/
def ofJson? (v : Json) : Option NetworkVisit := do
  let [categories, url, time, device] ←
    record? ["categories", "url", "event_time", "device_id"] 2 v | none
  return {
    categories := labelSet (← required? (Json.array? Json.string?) categories)
    url := ← required? Json.string? url
    time := ← optional? Json.instant? time
    device := ← optional? Json.id? device }

end NetworkVisit

namespace GoalKind

/-- The JSON form of a kind of goal, tagged by its `type`. -/
def toJson : GoalKind → Json
  | noGo => .object [("type", .string "no_go")]
  | budget maxMinutes =>
    .object [("type", .string "budget"), ("max_duration_minutes", .natural maxMinutes)]

/-- The largest number of minutes of a budget. -/
def mostMinutes : Nat := 4294967295

/-- Reads a kind of goal that stands inside so many values: an object with
its `type`, or an array that starts with it. The object is held before its
`type` is known, so that the bounds apply also to what is passed over. -/
def ofJson? (outer : Nat) : Json → Option GoalKind
  | .object fields => do
    if !Json.fieldsBounded (Json.mostNesting - (outer + 1)) fields then none
    else match ← required? Json.string? (← Json.field? "type" fields) with
    | "no_go" => return noGo
    | "budget" =>
      return budget
        (← required? (Json.natural? mostMinutes) (← Json.field? "max_duration_minutes" fields))
    | _ => none
  | .array [.string "no_go"] => some noGo
  | .array [.string "budget", minutes] => (Json.natural? mostMinutes minutes).map budget
  | _ => none

end GoalKind

namespace Goal

/-- The JSON form of a goal. -/
def toJson (g : Goal) : Json :=
  .object [("id", ofId g.id), ("activity_category_id", ofId g.category), ("kind", g.kind.toJson),
    ("active_since", ofInstant g.activeSince)]

/-- Reads a goal. -/
def ofJson? (v : Json) : Option Goal := do
  let [id, category, kind, since] ←
    record? ["id", "activity_category_id", "kind", "active_since"] 4 v | none
  return {
    id := ← required? Json.id? id
    category := ← required? Json.id? category
    kind := ← required? (GoalKind.ofJson? 1) kind
    activeSince := ← required? Json.instant? since }

end Goal

namespace Buddy

/-- The JSON form of a buddy. -/
def toJson (b : Buddy) : Json :=
  .object [("id", ofId b.id), ("anonymous_destination_id", ofId b.destination),
    ("sending_status", .string b.status.word)]

/-- Reads a buddy. -/
def ofJson? (v : Json) : Option Buddy := do
  let [id, destination, status] ←
    record? ["id", "anonymous_destination_id", "sending_status"] 3 v | none
  return {
    id := ← required? Json.id? id
    destination := ← required? Json.id? destination
    status := ← required? (Json.word? BuddyStatus.ofWord?) status }

end Buddy

namespace Notification

/-- The JSON form of a notification. -/
def toJson (n : Notification) : Json :=
  .object [("id", ofId n.id), ("user_anonymized_id", ofId n.user), ("goal_id", ofId n.goal),
    ("activity_category_id", ofId n.category), ("activity", n.activity.toJson),
    ("url", nullable .string n.url), ("created_at", ofInstant n.createdAt)]

/-- Reads a notification. -/
def ofJson? (v : Json) : Option Notification := do
  let [id, user, goal, category, activity, url, createdAt] ←
    record? ["id", "user_anonymized_id", "goal_id", "activity_category_id", "activity", "url",
      "created_at"] 7 v | none
  return {
    id := ← required? Json.id? id
    user := ← required? Json.id? user
    goal := ← required? Json.id? goal
    category := ← required? Json.id? category
    activity := ← required? Activity.ofJson? activity
    url := ← optional? Json.string? url
    createdAt := ← required? Json.instant? createdAt }

end Notification

namespace Settings

/-- The JSON form of settings. -/
def toJson (s : Settings) : Json :=
  .object [("combine_interval_ms", .natural s.combineMillis),
    ("skip_window_ms", .natural s.skipMillis),
    ("clock_skew_tolerance_ms", .natural s.skewToleranceMillis),
    ("minimum_activity_duration_ms", .natural s.minimumMillis),
    ("max_url_length", .natural s.maxUrlLength), ("conflict_policy", .string s.policy.word),
    ("database_url", .string s.databaseUrl), ("log_level", .string s.logLevel)]

/-- Reads settings; they are not checked. -/
def ofJson? (v : Json) : Option Settings := do
  let [combine, skip, skew, minimum, maxUrl, policy, database, level] ←
    record? ["combine_interval_ms", "skip_window_ms", "clock_skew_tolerance_ms",
      "minimum_activity_duration_ms", "max_url_length", "conflict_policy", "database_url",
      "log_level"] 8 v | none
  return {
    combineMillis := ← required? (Json.natural? maxWord) combine
    skipMillis := ← required? (Json.natural? maxWord) skip
    skewToleranceMillis := ← required? (Json.natural? maxWord) skew
    minimumMillis := ← required? (Json.natural? maxWord) minimum
    maxUrlLength := ← required? (Json.natural? maxWord) maxUrl
    policy := ← required? (Json.word? ConflictPolicy.ofWord?) policy
    databaseUrl := ← required? Json.string? database
    logLevel := ← required? Json.string? level }

/-- Reads settings of which any may be missing or `null`; those are as by
default. Of a field that repeats the last one counts. -/
def ofPartialJson? (v : Json) : Option Settings :=
  match v, ({} : Settings).toJson with
  | .object given, .object defaults =>
    ofJson? (.object (defaults.map fun (name, byDefault) =>
      match (given.filter (·.1 == name)).getLast? with
      | none | some (_, .null) => (name, byDefault)
      | some (_, value) => (name, value)))
  | _, _ => none

end Settings

namespace Week

/-- The JSON form of the days of a week: pairs of a date and an id. -/
def daysToJson (days : List (Date × Id)) : Json :=
  .array (days.map fun (date, id) => .array [ofDate date, ofId id])

/-- Reads a pair of a date and an id. -/
def entryOfJson? : Json → Option (Date × Id)
  | .array [date, id] => do return (← Json.date? date, ← Json.id? id)
  | _ => none

/-- Reads the days of a week. -/
def daysOfJson? (v : Json) : Option (List (Date × Id)) := Json.array? entryOfJson? v

end Week
end UsageDiary
