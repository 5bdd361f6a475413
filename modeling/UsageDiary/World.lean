import UsageDiary.Cache
import UsageDiary.Notification
import UsageDiary.Store.Basic

/-!
# The world of an analysis

Everything that an analysis reads and changes: the store, the clock, the
supply of ids, the directory of categories, the messages sent, the cache,
and the calls and reports made so far. Calls to the store and to the
collaborators may fail as outages lay down; a call that fails leaves
everything but the outages as it was.

`Work` is a step in this world: it ends in a value or it stops, and leaves a
world either way.
-/

namespace UsageDiary

/-- The calls that may fail. -/
inductive CallKind where
  | findLast
  | findDay
  | saveDay
  | findWeek
  | saveWeek
  | goals
  | categories
  | send
  | broadcast
deriving DecidableEq

namespace CallKind

/-- Every kind of call. -/
def all : List CallKind :=
  [findLast, findDay, saveDay, findWeek, saveWeek, goals, categories, send, broadcast]

/-- The word for a kind of call. -/
def word : CallKind → String
  | findLast => "find_last"
  | findDay => "find_day"
  | saveDay => "save_day"
  | findWeek => "find_week"
  | saveWeek => "save_week"
  | goals => "goals"
  | categories => "categories"
  | send => "send"
  | broadcast => "broadcast"

/-- The kind of call that a word names. -/
def ofWord? (s : String) : Option CallKind := all.find? (·.word == s)

end CallKind

/-- How a store fails in an outage. -/
inductive FaultKind where
  | corrupt
  | database
  | serialization
deriving DecidableEq

/-- The way to fail that a word names. -/
def FaultKind.ofWord? : String → Option FaultKind
  | "corrupt" => some corrupt
  | "database" => some database
  | "serialization" => some serialization
  | _ => none

/-- An outage: after some calls of a kind, so many of them fail. -/
structure Outage where
  call : CallKind
  after : Nat
  times : Nat
  kind : FaultKind
  messages : List String
deriving DecidableEq

namespace Outage

/-- The error of a store call in an outage. -/
def storeError (o : Outage) : StoreError :=
  match o.kind with
  | .corrupt => .corrupt (" / ".intercalate o.messages)
  | .database => .database
  | .serialization => .serialization

/-- What a collaborator says in an outage. -/
def causes (o : Outage) : Causes := ⟨o.messages.headD "", o.messages.drop 1⟩

/-- The outage that a call meets, and the outages after it. Those still
waiting for a call count it, up to the one that makes it fail. -/
def meet (call : CallKind) : List Outage → Option Outage × List Outage
  | [] => (none, [])
  | o :: rest =>
    if o.call ≠ call then
      let (met, rest) := meet call rest
      (met, o :: rest)
    else if 0 < o.after then
      let (met, rest) := meet call rest
      (met, { o with after := o.after - 1 } :: rest)
    else if 0 < o.times then (some o, { o with times := o.times - 1 } :: rest)
    else
      let (met, rest) := meet call rest
      (met, o :: rest)

end Outage

/-- A call that was made. -/
inductive Call where
  | findLast (found : Option Date)
  | findDay (date : Date) (activities : Option Nat)
  | findWeek (weekStart : Date) (days : Option Nat)
  | saveDay (user goal : Id) (date : Date) (activities : Nat)
  | saveWeek (user goal : Id) (weekStart : Date) (days : Nat)
  | goals (count : Nat)
  | categories (label : String) (count : Nat)
  | failed (call : CallKind)
deriving DecidableEq

/-- A notification that was handed over for delivery. -/
inductive Dispatch where
  | toUser (destination : Id) (notification : Notification)
  | toBuddies (destinations : List Id) (notification : Notification)
deriving DecidableEq

/-- What an analysis reads and changes. -/
structure World where
  store : Store
  now : Instant
  /-- The next id of the supply. -/
  nextId : Nat
  /-- The categories of each label. -/
  directory : List (String × List Id) := []
  cache : Cache := []
  outages : List Outage := []
  calls : List Call := []
  sent : List Dispatch := []
  log : List LogEvent := []

/-- Why work stops: an error, or arithmetic that leaves the calendar. -/
inductive Stop where
  | failed (e : AnalysisError)
  | outOfRange
deriving DecidableEq

/-- A step in the world. -/
abbrev Work (α : Type) := ExceptT Stop (StateM World) α

namespace Work

/-- Stops with an error. -/
def fail {α : Type} (e : AnalysisError) : Work α := throw (.failed e)

/-- The value of arithmetic that may leave the calendar. -/
def inRange {α : Type} : Option α → Work α
  | some a => pure a
  | none => throw .outOfRange

/-- The day bounds of a zone, or its error. -/
def ofZone {α : Type} : Except ZoneError α → Work α
  | .ok a => pure a
  | .error e => fail (.zone e)

/-- Adds a report to the log. -/
def report (e : LogEvent) : Work Unit := modify fun w => { w with log := w.log ++ [e] }

/-- Notes a call. -/
def record (c : Call) : Work Unit := modify fun w => { w with calls := w.calls ++ [c] }

/-- A result that respects the rules of days and weeks; a violation is
reported. -/
def respecting {α : Type} : Except Violation α → Work α
  | .ok a => pure a
  | .error v => do
    report v.logEvent
    fail (.violation v)

/-- Draws an id from the supply. -/
def freshId : Work Id := modifyGet fun w => (⟨w.nextId⟩, { w with nextId := w.nextId + 1 })

/-- The outage that a call of a kind meets, which is noted as failed. -/
def meetOutage (call : CallKind) : Work (Option Outage) := do
  let met ← modifyGet fun w =>
    let (met, outages) := Outage.meet call w.outages
    (met, { w with outages := outages })
  if met.isSome then record (.failed call)
  return met

/-- The slot of a user and goal, which is there from then on. -/
def openSlot (user goal : Id) : Work Slot := modifyGet fun w =>
  let slot := w.cache.slot user goal
  (slot, { w with cache := w.cache.set user goal slot })

/-- Sets the slot of a user and goal. -/
def setSlot (user goal : Id) (slot : Slot) : Work Unit :=
  modify fun w => { w with cache := w.cache.set user goal slot }

/-- Empties the slots of a user; says how many there were. -/
def invalidate (user : Id) : Work Nat := do
  let count ← modifyGet fun w =>
    let (count, cache) := w.cache.invalidate user
    (count, { w with cache := cache })
  report (Cache.invalidated user count)
  return count

end Work
end UsageDiary
