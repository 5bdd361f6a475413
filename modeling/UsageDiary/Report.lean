import UsageDiary.Calendar.Instant
import UsageDiary.Id

/-!
# Reports of usage

What comes in: a visit of the network with the labels of its categories,
and a device's report on the use of applications. Both become usage events,
which name the device, application and address where these are known.
-/

namespace UsageDiary

/-- The use of one application. -/
structure AppUse where
  application : String
  starts : Instant
  ends : Instant
deriving DecidableEq

/-- What a device reports at once, with the time its clock showed. -/
structure AppReport where
  deviceTime : Instant
  device : Option Id
  uses : List AppUse
deriving DecidableEq

/-- Adds a label to labels in ascending order, unless it is there. -/
def insertLabel (label : String) : List String → List String
  | [] => [label]
  | l :: rest =>
    if label < l then label :: l :: rest
    else if l = label then l :: rest
    else l :: insertLabel label rest

/-- Labels in ascending order, each once. -/
def labelSet (labels : List String) : List String :=
  labels.foldl (fun sorted label => insertLabel label sorted) []

/-- A visit of the network. The labels are in ascending order. -/
structure NetworkVisit where
  categories : List String
  url : String
  time : Option Instant
  device : Option Id
deriving DecidableEq

/-- The first characters of an address, at most `max` of them. -/
def truncateUrl (url : String) (max : Nat) : String := String.ofList (url.toList.take max)

/-- A stretch of usage on its way into a day. -/
structure UsageEvent where
  starts : Instant
  ends : Instant
  device : Option Id
  app : Option String
  url : Option String
deriving DecidableEq

end UsageDiary
