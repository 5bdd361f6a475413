import Mathlib.Data.List.MinMax
import Mathlib.Data.String.Basic
import UsageDiary.Proofs.Store.Made
import UsageDiary.Store.Basic

/-!
# Rows read back

The row of a day or a week is read as that day or week
(`TableStore.dayOfRow_rowOfDay`, `TableStore.weekOfRow_rowOfWeek`). Saving
over a key sets the id and the body of its row only, so what is found after
a save has the zone of the row that was there before
(`TableStore.findDay_put`): it is what was saved if and only if that row was
in the same zone (`TableStore.found_iff_same_zone`).
-/

namespace UsageDiary

/-- The numbers of a day fit their types, and its zone is in a directory. -/
structure Day.Fits (dir : Zone.Directory) (d : Day) : Prop where
  id : d.id.Fits
  user : d.user.Fits
  goal : d.goal.Fits
  zone : d.zone ∈ dir.zones
  activities : ∀ a ∈ d.activities, a.Fits

/-- The numbers of a week fit their types, and its zone is in a directory. -/
structure Week.Fits (dir : Zone.Directory) (w : Week) : Prop where
  id : w.id.Fits
  user : w.user.Fits
  goal : w.goal.Fits
  zone : w.zone ∈ dir.zones
  days : ∀ day ∈ w.days, day.2.Fits

/-! ## Tables -/

/-- A row of the same key that takes over id and body differs from the saved
one in its zone only. -/
theorem Row.with_eq {s r : Row} (h : s.key = r.key) :
    { s with id := r.id, body := r.body } = { r with zone := s.zone } := by
  obtain ⟨id, user, goal, date, zone, body⟩ := s
  cases h
  rfl

namespace Table

/-- A row is saved if its id is in no row of another key. -/
theorem upsert_of_free {t : Table} {r : Row} (free : ∀ s ∈ t, s.id = r.id → s.key = r.key) :
    t.upsert r = some (put r t) := by
  refine if_neg fun taken => ?_
  obtain ⟨s, hs, clash⟩ := List.any_eq_true.mp taken
  simp only [Bool.and_eq_true, beq_iff_eq, bne_iff_ne] at clash
  exact clash.2 (free s hs clash.1)

/-- After a row was saved, that of its key has the zone that was there. -/
theorem find?_put (t : Table) (r : Row) : List.find? (fun s => s.key == r.key) (put r t) =
    some { r with zone := ((List.find? (fun s => s.key == r.key) t).map (·.zone)).getD r.zone } := by
  induction t with
  | nil => simp [put]
  | cons s rest ih =>
    by_cases same : s.key = r.key
    · rw [put, if_pos same, Row.with_eq same, List.find?_cons_of_pos (by simp [Row.key]),
        List.find?_cons_of_pos (by simpa using same), Option.map_some, Option.getD_some]
    · rw [put, if_neg same, List.find?_cons_of_neg (by simpa using same),
        List.find?_cons_of_neg (by simpa using same), ih]

/-- The rows of a user and goal. -/
def rowsOf (t : Table) (user goal : Id) : Table :=
  t.filter fun r => r.user == toString user && r.goal == toString goal

/-- The last row is the first one of the greatest text as its date. -/
theorem findLast?_eq_argmax (t : Table) (user goal : Id) :
    t.findLast? user goal = (t.rowsOf user goal).argmax Row.date := by
  have step : later = List.argAux fun r s : Row => s.date < r.date := by
    funext best? r
    cases best? <;> rfl
  rw [findLast?, step]
  rfl

end Table

namespace TableStore

/-! ## Reading rows -/

theorem readId_toString {id : Id} (h : id.Fits) : readId (toString id) = .ok id := by
  rw [readId, Id.toList_toString, Id.parse?_text h]

theorem readDate_toString (d : Date) : readDate (toString d) = .ok d := by
  rw [readDate, Date.toList_toString, Date.parse?_text]

/-- A day as it is found in a row of a zone: with the bounds of its date
there. -/
def dayIn (dir : Zone.Directory) (d : Day) (zone : String) : Except StoreError Day := do
  zoneResult (Day.restore d.id d.user d.goal (← zoneResult (dir.parse zone)) d.date d.activities)

/-- A week as it is found in a row of a zone. -/
def weekIn (dir : Zone.Directory) (w : Week) (zone : String) : Except StoreError Week := do
  return { w with zone := ← zoneResult (dir.parse zone) }

section Directory

variable {dir : Zone.Directory} {d : Day} {w : Week}

theorem dayOfRow_eq (fits : d.Fits dir) (zone : String) :
    dayOfRow dir { rowOfDay d with zone := zone } = dayIn dir d zone := by
  have body : readBody (Json.array? Activity.ofJson?)
      (Json.array (d.activities.map Activity.toJson)).render = .ok d.activities := by
    rw [readBody, Json.decode?_render (Json.plain_array_map Activity.plain_toJson _),
      Json.array?_map fun a ha => Activity.ofJson?_toJson (fits.activities a ha)]
  unfold dayOfRow rowOfDay dayIn
  simp only [body, readId_toString fits.id, readId_toString fits.user, readId_toString fits.goal,
    readDate_toString, bind, Except.bind]

theorem weekOfRow_eq (made : w.Made) (fits : w.Fits dir) (zone : String) :
    weekOfRow dir { rowOfWeek w with zone := zone } = weekIn dir w zone := by
  have body : readBody Week.daysOfJson? (Week.daysToJson w.days).render = .ok w.days := by
    rw [readBody, Json.decode?_render (Week.plain_daysToJson _), Week.daysOfJson?_daysToJson fits.days]
  unfold weekOfRow rowOfWeek weekIn
  simp only [body, readId_toString fits.id, readId_toString fits.user, readId_toString fits.goal,
    readDate_toString, bind, Except.bind, pure, Except.pure, made.byDate]

theorem dayIn_own_zone (made : d.Made) (fits : d.Fits dir) : dayIn dir d d.zone.name = .ok d := by
  rw [dayIn, Zone.Directory.parse_name fits.zone]
  change zoneResult (Day.restore d.id d.user d.goal d.zone d.date d.activities) = .ok d
  rw [made.restored]
  rfl

theorem weekIn_own_zone (fits : w.Fits dir) : weekIn dir w w.zone.name = .ok w := by
  rw [weekIn, Zone.Directory.parse_name fits.zone]
  rfl

/-- The row of a day is read as that day. -/
theorem dayOfRow_rowOfDay (made : d.Made) (fits : d.Fits dir) : dayOfRow dir (rowOfDay d) = .ok d :=
  (dayOfRow_eq fits d.zone.name).trans (dayIn_own_zone made fits)

/-- The row of a week is read as that week. -/
theorem weekOfRow_rowOfWeek (made : w.Made) (fits : w.Fits dir) :
    weekOfRow dir (rowOfWeek w) = .ok w :=
  (weekOfRow_eq made fits w.zone.name).trans (weekIn_own_zone fits)

end Directory

/-! ## Saving over a row -/

variable {s : TableStore} {d : Day} {w : Week}

/-- The zone of the row of a key, or another one where there is no row. -/
def zoneAt (t : Table) (user goal : Id) (date : Date) (fresh : Zone) : String :=
  ((t.find? user goal date).map (·.zone)).getD fresh.name

theorem saveDay_of_free (free : ∀ r ∈ s.days, r.id = (rowOfDay d).id → r.key = (rowOfDay d).key) :
    ((Store.tables s).saveDay d).result = .ok (.tables { s with days := Table.put (rowOfDay d) s.days }) := by
  rw [Store.saveDay, Table.upsert_of_free free]

theorem saveWeek_of_free (free : ∀ r ∈ s.weeks, r.id = (rowOfWeek w).id → r.key = (rowOfWeek w).key) :
    ((Store.tables s).saveWeek w).result =
      .ok (.tables { s with weeks := Table.put (rowOfWeek w) s.weeks }) := by
  rw [Store.saveWeek, Table.upsert_of_free free]

/-- A day that was saved is found in the zone of the row that was there. -/
theorem findDay_put (fits : d.Fits s.directory) :
    ((Store.tables { s with days := Table.put (rowOfDay d) s.days }).findDay d.user d.goal d.date).result =
      (dayIn s.directory d (zoneAt s.days d.user d.goal d.date d.zone)).map some := by
  have row := Table.find?_put s.days (rowOfDay d)
  change Table.find? (Table.put (rowOfDay d) s.days) d.user d.goal d.date = _ at row
  simp only [Store.findDay, Store.queried, row]
  exact congrArg (Except.map some) (dayOfRow_eq fits _)

/-- A week that was saved is found in the zone of the row that was there. -/
theorem findWeek_put (made : w.Made) (fits : w.Fits s.directory) :
    ((Store.tables { s with weeks := Table.put (rowOfWeek w) s.weeks }).findWeek w.user w.goal
      w.weekStart).result =
      (weekIn s.directory w (zoneAt s.weeks w.user w.goal w.weekStart w.zone)).map some := by
  have row := Table.find?_put s.weeks (rowOfWeek w)
  change Table.find? (Table.put (rowOfWeek w) s.weeks) w.user w.goal w.weekStart = _ at row
  simp only [Store.findWeek, Store.queried, row]
  exact congrArg (Except.map some) (weekOfRow_eq made fits _)

theorem map_some_eq_iff {α : Type} {x : Except StoreError α} {a : α} :
    x.map some = .ok (some a) ↔ x = .ok a := by
  cases x with
  | error e => exact ⟨nofun, nofun⟩
  | ok b => simp [Except.map]

variable {dir : Zone.Directory}

/-- A day is found in its own zone only in a row of that zone. -/
theorem dayIn_eq_iff (made : d.Made) (fits : d.Fits dir) (zone : String) :
    dayIn dir d zone = .ok d ↔ dir.parse zone = .ok d.zone := by
  refine ⟨fun h => ?_, fun h => ?_⟩
  · cases read : dir.parse zone with
    | error e => rw [dayIn, read] at h; cases h
    | ok z =>
      rw [dayIn, read] at h
      change zoneResult (Day.restore d.id d.user d.goal z d.date d.activities) = .ok d at h
      cases restored : Day.restore d.id d.user d.goal z d.date d.activities with
      | error e => rw [restored] at h; cases h
      | ok d' =>
        rw [restored] at h
        cases h
        obtain ⟨empty, opened, same⟩ := Day.restore_eq restored
        rw [(Day.create_eq_ok opened).2.2] at same
        rw [congrArg Day.zone same]
  · have own := dayIn_own_zone made fits
    rw [dayIn, Zone.Directory.parse_name fits.zone] at own
    rwa [dayIn, h]

theorem weekIn_eq_iff (zone : String) :
    weekIn dir w zone = .ok w ↔ dir.parse zone = .ok w.zone := by
  cases read : dir.parse zone with
  | error e =>
    rw [weekIn, read]
    exact iff_of_false (fun h => by cases h) (fun h => by cases h)
  | ok z =>
    have found : weekIn dir w zone = .ok { w with zone := z } := by rw [weekIn, read]; rfl
    rw [found, Except.ok.injEq, Except.ok.injEq]
    exact ⟨fun h => congrArg Week.zone h, fun h => by rw [h]⟩

/-- The zone of a key reads as the zone of what is saved there, unless the
row of the key is in another one. -/
theorem parse_zoneAt_iff {t : Table} {user goal : Id} {date : Date} {zone : Zone} (h : zone ∈ dir.zones) :
    dir.parse (zoneAt t user goal date zone) = .ok zone ↔
      ∀ r, t.find? user goal date = some r → dir.parse r.zone = .ok zone := by
  unfold zoneAt
  cases t.find? user goal date with
  | none => exact iff_of_true (Zone.Directory.parse_name h) (by simp)
  | some r => simp

/-- A day or week whose id is in no row of another key can be saved. What is
found at its key then is what was saved, exactly if no row of the key was
there before that is in another zone. -/
theorem found_iff_same_zone (s : TableStore) :
    (∀ d : Day, d.Made → d.Fits s.directory →
      (∀ r ∈ s.days, r.id = (rowOfDay d).id → r.key = (rowOfDay d).key) →
      ∃ s', ((Store.tables s).saveDay d).result = .ok s' ∧
        ((s'.findDay d.user d.goal d.date).result = .ok (some d) ↔
          ∀ r, s.days.find? d.user d.goal d.date = some r → s.directory.parse r.zone = .ok d.zone)) ∧
    (∀ w : Week, w.Made → w.Fits s.directory →
      (∀ r ∈ s.weeks, r.id = (rowOfWeek w).id → r.key = (rowOfWeek w).key) →
      ∃ s', ((Store.tables s).saveWeek w).result = .ok s' ∧
        ((s'.findWeek w.user w.goal w.weekStart).result = .ok (some w) ↔
          ∀ r, s.weeks.find? w.user w.goal w.weekStart = some r →
            s.directory.parse r.zone = .ok w.zone)) := by
  refine ⟨fun d made fits free => ⟨_, saveDay_of_free free, ?_⟩,
    fun w made fits free => ⟨_, saveWeek_of_free free, ?_⟩⟩
  · rw [findDay_put fits, map_some_eq_iff, dayIn_eq_iff made fits, parse_zoneAt_iff fits.zone]
  · rw [findWeek_put made fits, map_some_eq_iff, weekIn_eq_iff, parse_zoneAt_iff fits.zone]

end TableStore

/-! ## A key saved in two zones -/

namespace Sample

/-- An empty day of 2025-01-07 of one user and goal that starts at a second. -/
def emptyDay (id : Id) (zone : Zone) (second : Int) : Day where
  id := id
  user := ⟨2⟩
  goal := ⟨3⟩
  date := (Date.ofDay? 20095).getD .epoch
  zone := zone
  starts := (Instant.ofParts? second 0).getD .epoch
  ends := (Instant.ofParts? (second + 86400) 0).getD .epoch
  activities := []

/-- The day in universal time. -/
def utcDay (id : Id) : Day := emptyDay id .utc 1736208000

/-- The day fourteen hours ahead of universal time. -/
def eastDay (id : Id) : Day := emptyDay id .east14 1736157600

theorem made_utcDay (id : Id) : (utcDay id).Made :=
  .create (show Day.create id ⟨2⟩ ⟨3⟩ .utc (utcDay id).date = .ok (utcDay id) from rfl)

theorem made_eastDay (id : Id) : (eastDay id).Made :=
  .create (show Day.create id ⟨2⟩ ⟨3⟩ .east14 (eastDay id).date = .ok (eastDay id) from rfl)

theorem fits_small {n : Nat} (h : n < 10) : (⟨n⟩ : Id).Fits := by
  change n < 2 ^ 128
  omega

theorem utc_mem_standard : Zone.utc ∈ Zone.Directory.standard.zones := by simp [Zone.Directory.standard]

theorem east14_mem_standard : Zone.east14 ∈ Zone.Directory.standard.zones := by
  simp [Zone.Directory.standard]

theorem parse_utc : Zone.Directory.standard.parse "UTC" = .ok .utc :=
  Zone.Directory.parse_name (z := .utc) utc_mem_standard

theorem fits_emptyDay {n : Nat} (h : n < 10) {zone : Zone} (mem : zone ∈ Zone.Directory.standard.zones)
    (second : Int) : (emptyDay ⟨n⟩ zone second).Fits .standard where
  id := fits_small h
  user := fits_small (by decide)
  goal := fits_small (by decide)
  zone := mem
  activities := by simp [emptyDay]

/-- A week of that user and goal, in universal time. -/
def utcWeek (id : Id) : Week := .create id ⟨2⟩ ⟨3⟩ (utcDay id).date.weekStart .utc

theorem fits_utcWeek {n : Nat} (h : n < 10) : (utcWeek ⟨n⟩).Fits .standard where
  id := fits_small h
  user := fits_small (by decide)
  goal := fits_small (by decide)
  zone := utc_mem_standard
  days := by simp [utcWeek, Week.create]

/-- Tables that hold the day and the week in universal time. -/
def held : TableStore :=
  { days := [TableStore.rowOfDay (utcDay ⟨1⟩)], weeks := [TableStore.rowOfWeek (utcWeek ⟨1⟩)] }

open TableStore in
theorem replaced_in_same_zone :
    (∃ s', ((Store.tables held).saveDay (utcDay ⟨4⟩)).result = .ok s' ∧
      (s'.findDay ⟨2⟩ ⟨3⟩ (utcDay ⟨4⟩).date).result = .ok (some (utcDay ⟨4⟩))) ∧
    ∃ s', ((Store.tables held).saveWeek (utcWeek ⟨4⟩)).result = .ok s' ∧
      (s'.findWeek ⟨2⟩ ⟨3⟩ (utcWeek ⟨4⟩).weekStart).result = .ok (some (utcWeek ⟨4⟩)) := by
  have zoneOf {t : Table} {user goal : Id} {date : Date} {r : Row} (h : ∀ s ∈ t, s.zone = "UTC")
      (found : t.find? user goal date = some r) : Zone.Directory.standard.parse r.zone = .ok .utc := by
    rw [h r (List.mem_of_find?_eq_some found), parse_utc]
  obtain ⟨days, weeks⟩ := found_iff_same_zone held
  obtain ⟨s, saved, found⟩ := days (utcDay ⟨4⟩) (made_utcDay ⟨4⟩)
    (fits_emptyDay (by decide) utc_mem_standard ..) fun r hr _ => by rw [List.mem_singleton.mp hr]; rfl
  obtain ⟨s', saved', found'⟩ := weeks (utcWeek ⟨4⟩) (.create ..)
    (fits_utcWeek (by decide)) fun r hr _ => by rw [List.mem_singleton.mp hr]; rfl
  exact ⟨⟨s, saved, found.mpr fun r => zoneOf fun r hr => by rw [List.mem_singleton.mp hr]; rfl⟩,
    s', saved', found'.mpr fun r => zoneOf fun r hr => by rw [List.mem_singleton.mp hr]; rfl⟩

open TableStore in
/-- A day that is saved over one in universal time is found in universal
time, whatever its own zone. -/
theorem not_replaced_in_other_zone :
    (eastDay ⟨4⟩).Made ∧ (eastDay ⟨4⟩).Fits .standard ∧
    ∃ s₁ s₂, ((Store.tables {}).saveDay (utcDay ⟨1⟩)).result = .ok (.tables s₁) ∧
      (∀ r ∈ s₁.days, r.id = (rowOfDay (eastDay ⟨4⟩)).id → r.key = (rowOfDay (eastDay ⟨4⟩)).key) ∧
      ((Store.tables s₁).saveDay (eastDay ⟨4⟩)).result = .ok s₂ ∧
      (s₂.findDay ⟨2⟩ ⟨3⟩ (eastDay ⟨4⟩).date).result = .ok (some (utcDay ⟨4⟩)) ∧
      utcDay ⟨4⟩ ≠ eastDay ⟨4⟩ := by
  have free : ∀ r ∈ held.days, r.id = (rowOfDay (eastDay ⟨4⟩)).id → r.key = (rowOfDay (eastDay ⟨4⟩)).key :=
    fun r hr _ => by rw [List.mem_singleton.mp hr]; rfl
  have zone : zoneAt held.days ⟨2⟩ ⟨3⟩ (eastDay ⟨4⟩).date .east14 = "UTC" := by
    have same : (rowOfDay (utcDay ⟨1⟩)).key = (rowOfDay (eastDay ⟨4⟩)).key := rfl
    have row : held.days.find? ⟨2⟩ ⟨3⟩ (eastDay ⟨4⟩).date = some (rowOfDay (utcDay ⟨1⟩)) := by
      change List.find? (fun r => r.key == (rowOfDay (eastDay ⟨4⟩)).key) [rowOfDay (utcDay ⟨1⟩)] = _
      rw [List.find?_cons_of_pos (by rw [same]; exact beq_self_eq_true _)]
    rw [zoneAt, row]
    rfl
  have fits : (eastDay ⟨4⟩).Fits .standard := fits_emptyDay (by decide) east14_mem_standard _
  have found := findDay_put (s := { held with weeks := [] }) fits
  refine ⟨made_eastDay ⟨4⟩, fits, { held with weeks := [] }, _, saveDay_of_free nofun, free,
    saveDay_of_free free, ?_, by decide⟩
  refine found.trans ?_
  change (dayIn .standard (eastDay ⟨4⟩) (zoneAt held.days ⟨2⟩ ⟨3⟩ (eastDay ⟨4⟩).date .east14)).map some = _
  rw [zone, dayIn, parse_utc]
  exact congrArg (fun day => (zoneResult day).map some) (made_utcDay ⟨4⟩).restored

end Sample
end UsageDiary
