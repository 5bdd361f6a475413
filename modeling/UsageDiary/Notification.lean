import UsageDiary.Activity

/-!
# Notifications of conflicts

What a user is told when activity breaks a no-go goal. Buddies get a copy
under an id of its own that never holds the address visited.
-/

namespace UsageDiary

/-- The notice that an activity breaks a goal. -/
structure Notification where
  id : Id
  user : Id
  goal : Id
  category : Id
  activity : Activity
  url : Option String
  createdAt : Instant
deriving DecidableEq

namespace Notification

/-- The copy for buddies, under an id of its own and without the address. -/
def redacted (n : Notification) (id : Id) : Notification := { n with id := id, url := none }

end Notification
end UsageDiary
