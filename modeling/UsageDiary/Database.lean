import UsageDiary.Database.Location
import UsageDiary.Store.Basic

/-!
# Opening a database

Only databases in memory can be opened here. One that is shared by its name
is the same as another of that name as long as that is open. The tables are
there once they were created, which a database opened for reading alone
refuses, and a closed database answers nothing.
-/

namespace UsageDiary

/-- Why a database could not be used. -/
inductive DatabaseError where
  | invalidUrl (url : String)
  | cannotOpen (url : String)
  | creatingTable (table : String)
  | pingFailed
deriving DecidableEq

/-- The wording of a database error. -/
def DatabaseError.message : DatabaseError → String
  | invalidUrl url => "Invalid database URL " ++ url
  | cannotOpen url => "Could not open database " ++ url
  | creatingTable table => "Creating table " ++ table
  | pingFailed => "Database ping failed"

/-- A database that was opened. -/
structure Database where
  location : Location
  /-- Nothing can be written. -/
  isReadOnly : Bool := location.isReadOnly
  isClosed : Bool := false
  tables : Option TableStore := none
deriving DecidableEq

namespace Database

/-- A database beside another that is open, with what the two share. -/
def besides (db : Database) : Option Database → Database
  | none => db
  | some other =>
    if other.isClosed || db.location.name ≠ other.location.name ||
        db.location.fileSystem ≠ other.location.fileSystem then db
    else if db.location.isSharedByName && other.location.isSharedByName then
      { db with isReadOnly := other.isReadOnly, tables := other.tables }
    else if db.location.hasSharedContents && other.location.hasSharedContents then
      { db with tables := other.tables }
    else db

/-- The report of an opening. -/
def opening (url : String) : LogEvent := ⟨.info, "Opening activity database", [("url", .text url)]⟩

/-- Opens the database of an address while another may be open. -/
def open? (other : Option Database) (url : String) : Except DatabaseError Database :=
  match Address.parse? url with
  | none => .error (.invalidUrl url)
  | some address =>
    match Location.ofAddress? address with
    | none => .error (.cannotOpen url)
    | some location =>
      if location.isInMemory then .ok (besides { location := location } other)
      else .error (.cannotOpen url)

/-- The number of connections. -/
def connections (db : Database) : Nat := if db.isClosed then 0 else 1

/-- The reports of created tables. -/
def schemaReports : List LogEvent :=
  [⟨.debug, "Table ready", [("table", .text Store.dayTable)]⟩,
    ⟨.debug, "Table ready", [("table", .text Store.weekTable)]⟩,
    ⟨.info, "Activity schema ready", [("tables", .int 2)]⟩]

/-- Creates the tables that are missing. -/
def createTables (db : Database) : Except DatabaseError Database :=
  if db.isClosed || (db.isReadOnly && db.tables.isNone) then
    .error (.creatingTable Store.dayTable)
  else .ok { db with tables := some (db.tables.getD {}) }

/-- Makes sure that the database answers. -/
def ping (db : Database) : Except DatabaseError Unit :=
  if db.isClosed then .error .pingFailed else .ok ()

/-- Closes the database. -/
def close (db : Database) : Database := { db with isClosed := true }

/-- The last day of a user and goal. -/
def findLast (db : Database) (user goal : Id) : Store.Reply (Option Day) :=
  match db.isClosed, db.tables with
  | false, some tables => (Store.tables tables).findLast user goal
  | _, _ => ⟨.error .database, []⟩

end Database
end UsageDiary
