import UsageDiary.Database.Octets

/-!
# Addresses of databases

An address is a scheme, which may be left out or repeated, the name of a
database and, after a question mark, parameters: how it may be used, whether
those that name it share it, whether it stays as it is, and on which file
system it lies. In the name and in the parameters a percent sign with two
digits stands for an octet; in the parameters a plus sign stands for a blank.
-/

namespace UsageDiary

/-- What an address asks for. -/
structure Address where
  name : Octets
  /-- A database of its own, which no other address can name. -/
  isOwn : Bool := false
  isInMemory : Bool := false
  isReadOnly : Bool := false
  isShared : Bool := false
  isImmutable : Bool := false
  fileSystem : Option Octets := none

namespace Address

/-- A text without the repetitions of another that it starts with. -/
def dropRepeated (lead : List Char) : Nat → List Char → List Char
  | 0, cs => cs
  | fuel + 1, cs =>
    if lead.isPrefixOf cs then dropRepeated lead fuel (cs.drop lead.length) else cs

/-- The address without its scheme. -/
def withoutScheme (url : List Char) : List Char :=
  let cs := dropRepeated "sqlite://".toList url.length url
  dropRepeated "sqlite:".toList cs.length cs

/-- The address of a name: `:memory:` alone is a database of its own. -/
def ofName? (name : Octets) : Option Address :=
  if name.word = ":memory:" then
    some { name := .ofString "file:memory", isOwn := true, isInMemory := true, isShared := true }
  else if name.percentDecode.isText then some { name := name.percentDecode }
  else none

/-- A name or value of a parameter. -/
def parameterText (cs : Octets) : Octets :=
  Octets.percentDecode (cs.map fun c => if c = '+'.toUInt8 then ' '.toUInt8 else c)

/-- Adds a parameter. The last one of a name counts, but a database that is
in memory or for reading alone stays so. -/
def withParameter? (a : Address) (parameter : Octets × Octets) : Option Address :=
  let value := parameterText parameter.2
  match (parameterText parameter.1).word, value.word with
  | "mode", "ro" => some { a with isReadOnly := true }
  | "mode", "rw" | "mode", "rwc" => some a
  | "mode", "memory" => some { a with isInMemory := true, isShared := true }
  | "cache", "private" => some { a with isShared := false }
  | "cache", "shared" => some { a with isShared := true }
  | "immutable", "true" | "immutable", "1" => some { a with isImmutable := true }
  | "immutable", "false" | "immutable", "0" => some { a with isImmutable := false }
  | "vfs", _ => some { a with fileSystem := some value }
  | _, _ => none

/-- Reads an address. -/
def parse? (url : String) : Option Address := do
  let (name, query) := Octets.cut '?'.toUInt8 (.ofString (String.ofList (withoutScheme url.toList)))
  query.parameters.foldlM withParameter? (← ofName? name)

end Address
end UsageDiary
