import UsageDiary.Json.Forms
import UsageDiary.Zone.Directory

/-!
# Days and weeks in tables

A store that keeps days and weeks as rows of text. A row has an id, which
no other row of its table has, and a key of user, goal and date, which is
unique as well. Dates are texts, so the last day of a user and goal is the
one with the greatest text. Saving over a key sets the id and the body of
its row and leaves the zone it was opened in. A zone is kept by its name,
which the store looks up in its directory when it reads the row.

Main statement: a saved row keeps one row for each key (`Table.upsert_keys`).
-/

namespace UsageDiary

/-- A row: a day with its activities or a week with its days as JSON. -/
structure Row where
  id : String
  user : String
  goal : String
  /-- The date of a day or the first date of a week. -/
  date : String
  zone : String
  body : String
deriving DecidableEq

namespace Row

/-- What a row is found by. -/
def key (r : Row) : String × String × String := (r.user, r.goal, r.date)

end Row

/-- The rows of a table. -/
abbrev Table := List Row

namespace Table

/-- The row of a key. -/
def find? (t : Table) (user goal : Id) (date : Date) : Option Row :=
  let key := (toString user, toString goal, toString date)
  List.find? (fun r => r.key == key) t

/-- The greater of two rows by the text of the date. -/
def later (best? : Option Row) (r : Row) : Option Row :=
  match best? with
  | some best => if best.date < r.date then some r else some best
  | none => some r

/-- The row of a user and goal with the greatest text as its date. -/
def findLast? (t : Table) (user goal : Id) : Option Row :=
  let user := toString user
  let goal := toString goal
  (t.filter fun r => r.user == user && r.goal == goal).foldl later none

/-- Sets the id and the body of the row of a key, or adds the row. -/
def put (r : Row) : Table → Table
  | [] => [r]
  | s :: rest =>
    if s.key = r.key then { s with id := r.id, body := r.body } :: rest else s :: put r rest

/-- Saves a row, unless a row of another key has its id. -/
def upsert (t : Table) (r : Row) : Option Table :=
  if t.any fun s => s.id == r.id && s.key != r.key then none else some (put r t)

/-- Adds a row as it is, unless its id or its key is taken. -/
def insert (t : Table) (r : Row) : Option Table :=
  if t.any fun s => s.id == r.id || s.key == r.key then none else some (t ++ [r])

theorem upsert_keys {t t' : Table} {r : Row} (h : t.upsert r = some t')
    (unique : (t.map Row.key).Nodup) : (t'.map Row.key).Nodup := by
  have keys : (put r t).map Row.key =
      if r.key ∈ t.map Row.key then t.map Row.key else t.map Row.key ++ [r.key] := by
    clear h unique
    induction t with
    | nil => rfl
    | cons s rest ih =>
      by_cases e : s.key = r.key
      · have same : Row.key { s with id := r.id, body := r.body } = s.key := rfl
        simp [put, e, same]
      · simp only [put, e, if_false, List.map_cons, ih, List.mem_cons, Ne.symm e, false_or]
        split <;> simp
  unfold upsert at h
  split at h
  · cases h
  · cases h
    rw [keys]
    split
    · exact unique
    · next h => exact List.nodup_append.mpr ⟨unique, by simp, by simpa using h⟩

end Table

/-- The two tables of a store, and the zones that it knows by name. -/
structure TableStore where
  days : Table := []
  weeks : Table := []
  directory : Zone.Directory := .standard
deriving DecidableEq

namespace TableStore

/-- Reads an id of a row. -/
def readId (raw : String) : Except StoreError Id :=
  match Id.parse? raw.toList with
  | some id => .ok id
  | none => .error (.corrupt ("invalid id " ++ raw))

/-- Reads a date of a row. -/
def readDate (raw : String) : Except StoreError Date :=
  match Date.parse? raw.toList with
  | some date => .ok date
  | none => .error (.corrupt ("invalid date " ++ raw))

/-- A zone error as an error of the row. -/
def zoneResult {α : Type} : Except ZoneError α → Except StoreError α
  | .ok a => .ok a
  | .error e => .error (.corrupt e.message)

/-- Reads the body of a row. -/
def readBody {α : Type} (ofJson? : Json → Option α) (body : String) : Except StoreError α :=
  match Json.decode? ofJson? body with
  | some a => .ok a
  | none => .error .serialization

/-- Reads a row as a day, its body first. -/
def dayOfRow (dir : Zone.Directory) (r : Row) : Except StoreError Day := do
  let activities ← readBody (Json.array? Activity.ofJson?) r.body
  let id ← readId r.id
  let user ← readId r.user
  let goal ← readId r.goal
  let date ← readDate r.date
  let zone ← zoneResult (dir.parse r.zone)
  zoneResult (Day.restore id user goal zone date activities)

/-- Reads a row as a week, its body first. -/
def weekOfRow (dir : Zone.Directory) (r : Row) : Except StoreError Week := do
  let days ← readBody Week.daysOfJson? r.body
  let id ← readId r.id
  let user ← readId r.user
  let goal ← readId r.goal
  let weekStart ← readDate r.date
  let zone ← zoneResult (dir.parse r.zone)
  return ⟨id, user, goal, weekStart, zone, Week.byDate days⟩

/-- The row of a day. -/
def rowOfDay (d : Day) : Row where
  id := toString d.id
  user := toString d.user
  goal := toString d.goal
  date := toString d.date
  zone := d.zone.name
  body := (Json.array (d.activities.map Activity.toJson)).render

/-- The row of a week. -/
def rowOfWeek (w : Week) : Row where
  id := toString w.id
  user := toString w.user
  goal := toString w.goal
  date := toString w.weekStart
  zone := w.zone.name
  body := (Week.daysToJson w.days).render

end TableStore
end UsageDiary
