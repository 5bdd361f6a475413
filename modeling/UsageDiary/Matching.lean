import UsageDiary.User
import UsageDiary.World

/-!
# Goals that an event counts for

The labels of an event name categories of activity. An event counts for the
goals of the user in one of these categories that were active when it was
observed. Main statement: a goal that is matched is one of the user's
(`matching_mem`).
-/

namespace UsageDiary

/-- Adds an id to ids in ascending order, unless it is there. -/
def insertId (id : Id) : List Id → List Id
  | [] => [id]
  | x :: rest => if id < x then id :: x :: rest else if x = id then x :: rest else x :: insertId id rest

/-- Adds ids to ids in ascending order. -/
def insertIds (ids sorted : List Id) : List Id := ids.foldl (fun sorted id => insertId id sorted) sorted

/-- The goals in one of some categories that were active at an instant. -/
def matching (categories : List Id) (t : Instant) (goals : List Goal) : List Goal :=
  goals.filter fun g => categories.contains g.category && g.wasActiveAt t

theorem matching_mem {categories : List Id} {t : Instant} {goals : List Goal} {g : Goal}
    (h : g ∈ matching categories t goals) :
    g ∈ goals ∧ g.category ∈ categories ∧ g.activeSince ≤ t := by
  simpa [matching, Goal.wasActiveAt] using h

namespace Work

/-- The categories of a label. -/
def categoriesOf (label : String) : Work (List Id) := do
  match ← meetOutage .categories with
  | some o => fail (.goalLookup o.causes)
  | none =>
    let found := insertIds ((← get).directory.lookup label |>.getD []) []
    record (.categories label found.length)
    return found

/-- The categories of labels, in ascending order. -/
def categoriesFor (labels : List String) : Work (List Id) :=
  labels.foldlM (fun sorted label => return insertIds (← categoriesOf label) sorted) []

/-- The goals of a user. -/
def goalsOf (user : User) : Work (List Goal) := do
  match ← meetOutage .goals with
  | some o => fail (.goalLookup o.causes)
  | none =>
    record (.goals user.goals.length)
    return user.goals

/-- The report of a match. -/
def matched (categories goals : Nat) : LogEvent :=
  ⟨.debug, "Matched event to goals", [("categories", .int categories), ("goals_matched", .int goals)]⟩

/-- The goals of a user that activity with some labels, observed at an
instant, counts for. -/
def matchingGoals (user : User) (labels : List String) (t : Instant) : Work (List Goal) := do
  let categories ← categoriesFor labels
  if categories.isEmpty then return []
  else
    let goals := matching categories t (← goalsOf user)
    report (matched categories.length goals.length)
    return goals

end Work
end UsageDiary
