import UsageDiary.Zone.Basic

/-!
# Zones that never change

Universal time and the two zones at the outermost offsets.
-/

namespace UsageDiary.Zone

/-- The zone `UTC`. -/
def utc : Zone where
  name := "UTC"
  base := 0
  changes := []

/-- The zone `Etc/GMT+12`. -/
def west12 : Zone where
  name := "Etc/GMT+12"
  base := -43200
  changes := []

/-- The zone `Etc/GMT-14`. -/
def east14 : Zone where
  name := "Etc/GMT-14"
  base := 50400
  changes := []

end UsageDiary.Zone
