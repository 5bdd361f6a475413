import UsageDiary.Store.Memory
import UsageDiary.Store.Table

/-!
# Stores

A store of days and weeks: in memory or in tables. A call answers with a
result and what it reports; the tables report every statement that went
through, before its row is read.
-/

namespace UsageDiary

/-- Where days and weeks are kept. -/
inductive Store where
  | memory (s : MemoryStore)
  | tables (s : TableStore)
deriving DecidableEq

/-- The answer of a store call. -/
structure Store.Reply (α : Type) where
  result : Except StoreError α
  log : List LogEvent := []

namespace Store

/-- The report of a statement. -/
def statement (operation table : String) (rows : Nat) : LogEvent :=
  ⟨.debug, "Store operation completed", [("operation", .text operation), ("table", .text table),
    ("rows_affected", .text ("Some(" ++ toString rows ++ ")"))]⟩

/-- The table of days. -/
def dayTable : String := "day_activities"

/-- The table of weeks. -/
def weekTable : String := "week_activities"

/-- The answer to a query: the row that it found, read. -/
def queried {α : Type} (operation table : String) (read : Row → Except StoreError α)
    (row? : Option Row) : Reply (Option α) where
  result := match row? with
    | some r => (read r).map some
    | none => .ok none
  log := [statement operation table (if row?.isSome then 1 else 0)]

/-- The day of a user and goal with the greatest date. -/
def findLast (s : Store) (user goal : Id) : Reply (Option Day) :=
  match s with
  | memory m => ⟨.ok (m.findLast user goal), []⟩
  | tables t => queried "SELECT_LAST" dayTable (TableStore.dayOfRow t.directory) (t.days.findLast? user goal)

/-- The day of a user, goal and date. -/
def findDay (s : Store) (user goal : Id) (date : Date) : Reply (Option Day) :=
  match s with
  | memory m => ⟨.ok (m.findDay user goal date), []⟩
  | tables t => queried "SELECT" dayTable (TableStore.dayOfRow t.directory) (t.days.find? user goal date)

/-- The week of a user, goal and first date. -/
def findWeek (s : Store) (user goal : Id) (weekStart : Date) : Reply (Option Week) :=
  match s with
  | memory m => ⟨.ok (m.findWeek user goal weekStart), []⟩
  | tables t =>
    queried "SELECT" weekTable (TableStore.weekOfRow t.directory) (t.weeks.find? user goal weekStart)

/-- Saves a day; a refused row leaves the store as it was. -/
def saveDay (s : Store) (d : Day) : Reply Store :=
  match s with
  | memory m => ⟨.ok (memory (m.saveDay d)), []⟩
  | tables t => match t.days.upsert (TableStore.rowOfDay d) with
    | some days => ⟨.ok (tables { t with days := days }), [statement "UPSERT" dayTable 1]⟩
    | none => ⟨.error .database, []⟩

/-- Saves a week; a refused row leaves the store as it was. -/
def saveWeek (s : Store) (w : Week) : Reply Store :=
  match s with
  | memory m => ⟨.ok (memory (m.saveWeek w)), []⟩
  | tables t => match t.weeks.upsert (TableStore.rowOfWeek w) with
    | some weeks => ⟨.ok (tables { t with weeks := weeks }), [statement "UPSERT" weekTable 1]⟩
    | none => ⟨.error .database, []⟩

/-- The zones that days of the store may have. -/
def zones : Store → List Zone
  | memory m => (m.days.map (·.zone)).eraseDups
  | tables t => t.directory.zones

end Store
end UsageDiary
