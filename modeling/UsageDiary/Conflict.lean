import UsageDiary.Merge.Basic
import UsageDiary.User
import UsageDiary.World

/-!
# Conflicts

Activity under a no-go goal is a conflict: it is notified to the user when
an activity is created, and under one policy also when it is extended. The
buddies that accepted get a copy that never holds the address visited.
-/

namespace UsageDiary

/-- An outcome under a goal is notified. -/
def ConflictPolicy.isConflict (policy : ConflictPolicy) (goal : Goal) (outcome : Outcome) : Bool :=
  goal.isNoGo && match policy, outcome with
    | _, .created .. => true
    | .onEveryChange, .extended _ => true
    | _, _ => false

namespace Work

/-- Hands a notification over, unless that meets an outage. -/
def dispatch (call : CallKind) (d : Dispatch) : Work Unit := do
  match ← meetOutage call with
  | some o => fail (.messaging o.causes)
  | none => modify fun w => { w with sent := w.sent ++ [d] }

/-- The report of a notified conflict. -/
def dispatched (user goal : Id) (buddies : Nat) : LogEvent :=
  ⟨.info, "Goal conflict dispatched", [("user_anonymized_id", .shown user),
    ("goal_id", .shown goal), ("buddy_count", .int buddies)]⟩

/-- Notifies the user of a conflict, and the buddies that accepted. -/
def notify (user : User) (goal : Goal) (activity : Activity) (url : Option String) :
    Work Notification := do
  let notification : Notification :=
    ⟨← freshId, user.id, goal.id, goal.category, activity, url, (← get).now⟩
  dispatch .send (.toUser user.destination notification)
  let buddies := user.acceptedBuddies.map (·.destination)
  if !buddies.isEmpty then
    dispatch .broadcast (.toBuddies buddies (notification.redacted (← freshId)))
  report (dispatched user.id goal.id buddies.length)
  return notification

end Work
end UsageDiary
