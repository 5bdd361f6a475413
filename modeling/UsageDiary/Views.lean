import UsageDiary.Analysis
import UsageDiary.Json.Forms
import UsageDiary.Spread

/-!
# Views

What results look like as JSON: days with their bounds, weeks, spreads,
slots, outcomes, analyses, and the calls, messages and reports of a world.
Views are for looking at; only those of usage events are read back.
-/

namespace UsageDiary

open Json (ofId ofInstant ofDate nullable required? optional? record?)

/-- The fields of a value shown as an object. -/
abbrev View := List (String × Json)

/-- What stands before the first colon with a blank after it. -/
def beforeColon : List Char → List Char
  | [] => []
  | ':' :: ' ' :: _ => []
  | c :: rest => c :: beforeColon rest

/-- The wording of a corrupt record, where a reason that starts with
"invalid" and a blank stops before its explanation. -/
def corruptView (reason : String) : StoreError :=
  if "invalid ".toList.isPrefixOf reason.toList then
    .corrupt (String.ofList (beforeColon reason.toList))
  else .corrupt reason

/-- The code of a zone error and its wording. -/
def ZoneError.view (e : ZoneError) : View :=
  [("error", .string e.code), ("message", .string e.message)]

/-- The code of a settings error and its wording. -/
def SettingsError.view (e : SettingsError) : View :=
  [("error", .string e.code), ("message", .string e.message)]

/-- The code of a store error, and the wording of a corrupt record. -/
def StoreError.view : StoreError → View
  | e@(corrupt reason) =>
    [("error", .string e.code), ("message", .string (corruptView reason).message)]
  | e => [("error", .string e.code)]

/-- The code of an error of an analysis, whose fault it is, and its wording,
which of the store's errors only a corrupt record has. -/
def AnalysisError.view (e : AnalysisError) : View :=
  [("error", .string e.code), ("server", .bool e.isServerError)] ++ match e with
    | storage e@(.corrupt reason) =>
      [("message", .string (storage (corruptView reason)).message), ("store", .string e.code)]
    | storage e => [("store", .string e.code)]
    | e => [("message", .string e.message)]

namespace Day

/-- A day with its bounds and activities. -/
def view (d : Day) : View :=
  [("activities", .array (d.activities.map Activity.toJson)), ("date", ofDate d.date),
    ("end", ofInstant d.ends), ("goal", ofId d.goal), ("id", ofId d.id),
    ("start", ofInstant d.starts), ("user", ofId d.user), ("zone", .string d.zone.name)]

/-- The quarters of an hour with usage, by number. -/
def spreadView (d : Day) : Json :=
  let used := d.spread.zipIdx.filter fun (minutes, _) => minutes != 0
  .object [("buckets", .natural d.spread.length),
    ("used", .array (used.map fun (minutes, quarter) => .array [.natural quarter, .natural minutes]))]

/-- A day with its spread, and how it stands to a goal. -/
def viewFor (d : Day) (g : Goal) : View :=
  d.view ++ [("spread", d.spreadView), ("total", .natural d.totalMinutes),
    ("accomplished", .bool (d.isAccomplished g)), ("beyond", .natural (d.minutesBeyond g))]

end Day

/-- A week with its days. -/
def Week.view (w : Week) : View :=
  [("days", Week.daysToJson w.days), ("end", ofDate w.weekEnd), ("goal", ofId w.goal),
    ("id", ofId w.id), ("start", ofDate w.weekStart), ("user", ofId w.user),
    ("zone", .string w.zone.name)]

/-- A slot with the id, date and size of its day. -/
def Slot.view (s : Slot) : View :=
  let day (d : Day) := Json.array [ofId d.id, ofDate d.date, .natural d.activities.length]
  [("day", nullable day s.day), ("loaded", .bool s.loaded), ("week_pending", .bool s.weekPending)]

/-- A user with goals and buddies. -/
def User.view (u : User) : View :=
  [("id", ofId u.id), ("zone", .string u.zone.name), ("goals", .array (u.goals.map Goal.toJson)),
    ("buddies", .array (u.buddies.map Buddy.toJson)), ("destination", ofId u.destination),
    ("monitored", nullable ofDate u.lastActive)]

/-- An outcome with its activity. -/
def Outcome.view (o : Outcome) : View :=
  let common := [("activity", o.activity.toJson), ("kind", .string o.word),
    ("persisted", .bool o.isPersisted)]
  match o with
  | created _ dayCreated => common ++ [("day_created", .bool dayCreated)]
  | _ => common

/-- An outcome under a goal. -/
def GoalOutcome.view (o : GoalOutcome) : View :=
  o.outcome.view ++ [("goal", ofId o.goal), ("day", ofId o.day), ("date", ofDate o.date),
    ("conflict", .bool o.conflict)]

/-- An analysis with its counts. -/
def Analysis.view (a : Analysis) : View :=
  [("outcomes", .array (a.outcomes.map fun o => .object o.view)),
    ("empty", .bool a.outcomes.isEmpty), ("latest", nullable ofDate a.latest),
    ("counts", .array ([a.created, a.extended, a.absorbed, a.conflicts].map .natural))]

namespace UsageEvent

/-- The JSON form of a usage event. -/
def toJson (e : UsageEvent) : Json :=
  .object [("app", nullable .string e.app), ("device", nullable ofId e.device),
    ("end", ofInstant e.ends), ("start", ofInstant e.starts), ("url", nullable .string e.url)]

/-- Reads a usage event. -/
def ofJson? (v : Json) : Option UsageEvent := do
  let [starts, ends, device, app, url] ←
    record? ["start", "end", "device", "app", "url"] 5 v | none
  return {
    starts := ← required? Json.instant? starts
    ends := ← required? Json.instant? ends
    device := ← optional? Json.id? device
    app := ← optional? Json.string? app
    url := ← optional? Json.string? url }

end UsageEvent

/-- A call: its name, what it was about and what it gave. -/
def Call.view : Call → Json
  | findLast found => .array [.string "find_last", nullable ofDate found]
  | findDay date count => .array [.string "find_day", ofDate date, nullable .natural count]
  | findWeek start count => .array [.string "find_week", ofDate start, nullable .natural count]
  | saveDay _ _ date count => .array [.string "save_day", ofDate date, .natural count]
  | saveWeek _ _ start count => .array [.string "save_week", ofDate start, .natural count]
  | goals count => .array [.string "goals", .natural count]
  | categories label count => .array [.string "categories", .string label, .natural count]
  | failed call => .array [.string call.word, .string "failed"]

/-- A message with its destination. -/
def Dispatch.view : Dispatch → View
  | toUser destination n => [("notification", n.toJson), ("to", ofId destination)]
  | toBuddies destinations n =>
    [("notification", n.toJson), ("to", .array (destinations.map ofId))]

/-- The value of a field of a report. -/
def LogValue.toJson : LogValue → Json
  | text s => .string s
  | int n => .int n
  | bool b => .bool b

/-- A report: its level, message and fields. -/
def LogEvent.view (e : LogEvent) : Json :=
  .array [.string e.level.word, .string e.message,
    .object (e.fields.map fun (k, v) => (k, v.toJson))]

end UsageDiary
