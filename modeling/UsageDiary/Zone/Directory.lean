import UsageDiary.Text.Blank
import UsageDiary.Zone.Africa
import UsageDiary.Zone.America
import UsageDiary.Zone.Asia
import UsageDiary.Zone.Europe
import UsageDiary.Zone.Fixed
import UsageDiary.Zone.Pacific

/-!
# Directories of zones

The zones that can be named. A name is matched letter for letter, with the
blanks around it left out. Which zones there are differs from one edition of
the zone tables to the next, so a directory may be any list of zones whose
names can be told apart. Main statement: what a text names is a zone of the
directory (`Zone.Directory.mem_of_parse`).
-/

namespace UsageDiary.Zone

/-- Zones that can be named: their names differ, are not empty, and have no
blanks around them. -/
structure Directory where
  zones : List Zone
  distinct : (zones.map (·.name)).Nodup
  trimmed : ∀ z ∈ zones, Text.trim z.name.toList = z.name.toList
  named : ∀ z ∈ zones, z.name ≠ ""
deriving DecidableEq

namespace Directory

/-- The zone of a name. -/
def find? (dir : Directory) (name : String) : Option Zone := dir.zones.find? (·.name == name)

/-- The zone that a text names, blanks around the name left out. -/
def parse (dir : Directory) (text : String) : Except ZoneError Zone :=
  if Text.trimmed text = "" then .error (.unknownZone text)
  else match dir.find? (Text.trimmed text) with
    | some zone => .ok zone
    | none => .error (.unknownZone text)

theorem mem_of_parse {dir : Directory} {text : String} {z : Zone} (h : dir.parse text = .ok z) :
    z ∈ dir.zones := by
  unfold parse at h
  split at h
  · cases h
  · split at h
    · next found =>
      cases h
      exact List.mem_of_find?_eq_some found
    · cases h

/-- Zones from all over the world, with the changes of the years 1970 to
2037. -/
def standard : Directory where
  zones := [utc, west12, east14, amsterdam, london, newYork, saoPaulo, stJohns, apia, kolkata, kathmandu,
    lordHowe, havana, monrovia, beirut, cairo, kiritimati, kwajalein, tehran, santiago, chatham,
    troll, asuncion, azores]
  distinct := by decide +kernel
  trimmed := by decide +kernel
  named := by decide +kernel

end Directory

/-- The zone that a text names. -/
def parse (text : String) : Except ZoneError Zone := Directory.standard.parse text

end UsageDiary.Zone
