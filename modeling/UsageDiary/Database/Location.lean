import UsageDiary.Database.Address
import UsageDiary.Database.Switch

/-!
# Where a database lies

An address becomes the name of a file, or a location that starts with
`file:` and carries options of its own: a file system, the access, whether
the database is shared, and whether its file stays as it is. Options of the
location replace what the address asked for, but they cannot ask for more
access than there is. Only databases in memory can be opened: those that ask
for it, those of the names `:memory:` and the empty one, and those that are
files on a file system in memory.
-/

namespace UsageDiary

/-- The access to a database. -/
structure Access where
  readOnly : Bool := false
  readWrite : Bool := false
  create : Bool := false
  inMemory : Bool := false
deriving DecidableEq

namespace Access

/-- How much an access allows. -/
def rank (a : Access) : Nat :=
  a.readOnly.toNat + 2 * a.readWrite.toNat + 4 * a.create.toNat + 128 * a.inMemory.toNat

/-- The access of a word. -/
def ofWord? : String → Option Access
  | "ro" => some { readOnly := true }
  | "rw" => some { readWrite := true }
  | "rwc" => some { readWrite := true, create := true }
  | "memory" => some { inMemory := true }
  | _ => none

/-- Replaces an access by another that allows no more. -/
def replaced? (a other : Access) : Option Access :=
  if { other with inMemory := false }.rank ≤ a.rank then some other else none

end Access

/-- Where a database lies and how it is opened. -/
structure Location where
  name : Octets
  fileSystem : String := "unix"
  access : Access
  /-- A database of its own, which no other location can name. -/
  isOwn : Bool
  isShared : Bool
  /-- It was written as a location and not as a mere name. -/
  isWritten : Bool := false
  /-- Its file stays as it is. -/
  isImmutable : Bool := false
deriving DecidableEq

namespace Location

/-- Follows an option of a location. -/
def withOption? (l : Location) (option : Octets × Octets) : Option Location :=
  match option.1.word, option.2.word with
  | "vfs", fileSystem => some { l with fileSystem := fileSystem }
  | "cache", "shared" => some { l with isShared := true }
  | "cache", "private" => some { l with isShared := false }
  | "cache", _ => none
  | "mode", mode =>
    ((Access.ofWord? mode).bind l.access.replaced?).map fun access => { l with access := access }
  | _, _ => some l

/-- A part of a written location: it ends at an octet zero. -/
def part (cs : Octets) : Octets := cs.percentDecode.takeWhile (· ≠ 0)

/-- A written location without the host, which can only be this one. -/
def withoutHost? (cs : Octets) : Option Octets :=
  if (Octets.ofString "//").isPrefixOf cs then
    let (host, rest) := (cs.drop 2).span (· ≠ '/'.toUInt8)
    if ["", "localhost"].contains (Octets.word host) then some rest else none
  else some cs

/-- The options say that the file stays as it is; of several options that
say whether it does the first counts. -/
def saysImmutable (options : List (Octets × Octets)) : Bool :=
  match options.find? (·.1.word == "immutable") with
  | some (_, value) => Switch.isOn value.word
  | none => false

/-- Reads a file name: a written location, or a name as it is. -/
def ofFileName? (l : Location) : Option Location :=
  if (Octets.ofString "file:").isPrefixOf l.name then do
    let written ← withoutHost? (l.name.drop 5)
    let (name, query) := Octets.cut '?'.toUInt8 (written.takeWhile (· ≠ '#'.toUInt8))
    let options := query.parameters.map fun (key, value) => (part key, part value)
    let options := options.filter (!·.1.isEmpty)
    options.foldlM withOption?
      { l with name := part name, isWritten := true, isImmutable := saysImmutable options }
  else some l

/-- The options that an address puts into the location. -/
def options (a : Address) : List Octets :=
  (if a.isImmutable then [.ofString "immutable=true"] else []) ++
    a.fileSystem.toList.map (.ofString "vfs=" ++ ·)

/-- The file name of an address. -/
def fileName (a : Address) : Octets :=
  if (options a).isEmpty then a.name
  else .ofString "file:" ++ a.name.percentEncode ++
    .ofString "?" ++ (Octets.ofString "&").intercalate (options a)

/-- The location of an address; a file name has no octet zero. -/
def ofAddress? (a : Address) : Option Location :=
  if (fileName a).contains 0 then none
  else ofFileName? {
    name := fileName a
    access := {
      readOnly := a.isReadOnly
      readWrite := !a.isReadOnly
      create := !a.isReadOnly
      inMemory := a.isInMemory }
    isOwn := a.isOwn
    isShared := a.isShared }

/-- The file systems that there are. -/
def fileSystems : List String := ["unix", "unix-none", "unix-dotfile", "unix-excl", "memdb"]

/-- The database is held in memory, whatever its file system. -/
def isHeldInMemory (l : Location) : Bool := l.access.inMemory || l.name.word == ":memory:"

/-- The database is a file on its file system. -/
def isFile (l : Location) : Bool := !l.isHeldInMemory && !l.name.isEmpty

/-- Nothing can be written: the access does not allow it, or the database is
a file that stays as it is. -/
def isReadOnly (l : Location) : Bool := l.access.readOnly || (l.isFile && l.isImmutable)

/-- The location is that of a database in memory, on a file system that is
there. -/
def isInMemory (l : Location) : Bool :=
  fileSystems.contains l.fileSystem && (!l.isFile || l.fileSystem == "memdb")

/-- The database is shared with others of its name: where that was asked for
and the name is known. -/
def isSharedByName (l : Location) : Bool :=
  l.isShared && !l.isOwn && !l.name.isEmpty && (l.isWritten || !l.isHeldInMemory)

/-- The contents alone are shared: on the file system in memory, by names
that start with a slash. -/
def hasSharedContents (l : Location) : Bool :=
  l.fileSystem == "memdb" && l.isFile && 1 < l.name.length &&
    ["/", "\\"].contains (Octets.word (l.name.take 1))

end Location
end UsageDiary
