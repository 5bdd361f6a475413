import UsageDiary.Goal
import UsageDiary.Zone.Basic

/-!
# Users and buddies

A user, known by an id alone, with a time zone, goals, buddies and the
address for messages. Main statement: the buddies that get messages are
those that accepted (`User.mem_acceptedBuddies`).
-/

namespace UsageDiary

/-- Whether a buddy agreed to get messages. -/
inductive BuddyStatus where
  | requested
  | accepted
  | rejected
deriving DecidableEq

/-- The word for a status. -/
def BuddyStatus.word : BuddyStatus → String
  | requested => "requested"
  | accepted => "accepted"
  | rejected => "rejected"

/-- The status that a word names. -/
def BuddyStatus.ofWord? : String → Option BuddyStatus
  | "requested" => some requested
  | "accepted" => some accepted
  | "rejected" => some rejected
  | _ => none

/-- A buddy of a user, and the address for messages. -/
structure Buddy where
  id : Id
  destination : Id
  status : BuddyStatus
deriving DecidableEq

/-- A user. -/
structure User where
  id : Id
  zone : Zone
  goals : List Goal
  buddies : List Buddy
  destination : Id
  lastActive : Option Date
deriving DecidableEq

namespace User

/-- The buddies that agreed to get messages. -/
def acceptedBuddies (u : User) : List Buddy := u.buddies.filter (·.status == .accepted)

theorem mem_acceptedBuddies {u : User} {b : Buddy} :
    b ∈ u.acceptedBuddies ↔ b ∈ u.buddies ∧ b.status = .accepted := by
  simp [acceptedBuddies]

/-- Notes activity on a date, unless a date as late is known already; says
whether it was noted. -/
def record (u : User) (date : Date) : Bool × User :=
  match u.lastActive with
  | some last => if date ≤ last then (false, u) else (true, { u with lastActive := some date })
  | none => (true, { u with lastActive := some date })

end User
end UsageDiary
