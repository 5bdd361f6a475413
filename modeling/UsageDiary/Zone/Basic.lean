import UsageDiary.Calendar.InstantText

/-!
# Time zones

A zone is an offset from universal time and the changes of it. From them
come the local date of an instant and the instants that bound a local day.

A local day starts at its midnight, the earlier one where the clock shows
midnight twice, and otherwise at the first quarter of an hour within three
hours after midnight that the clock shows. Main statement: every instant
found for a reading of the clock shows that reading (`Zone.mem_shows`).
-/

namespace UsageDiary

/-- A change of a zone's offset, in seconds, at a second of universal time. -/
structure OffsetChange where
  second : Int
  offset : Int
deriving DecidableEq

/-- A time zone: its offset before every change, and the changes in order. -/
structure Zone where
  name : String
  base : Int
  changes : List OffsetChange
deriving DecidableEq

/-- Why a question about a time zone has no answer. -/
inductive ZoneError where
  | unknownZone (name : String)
  | noStartOfDay (date : Date) (zone : String)
deriving DecidableEq

namespace ZoneError

/-- The code of a zone error. -/
def code : ZoneError → String
  | unknownZone _ => "UnknownZone"
  | noStartOfDay _ _ => "NoStartOfDay"

/-- The wording of a zone error. -/
def message : ZoneError → String
  | unknownZone name => "Unknown IANA time zone '" ++ name ++ "'"
  | noStartOfDay date zone => "No local start of day for " ++ toString date ++ " in " ++ zone

end ZoneError

namespace Zone

/-- The offset of the last change that is not after `second`. -/
def offsetFrom (offset : Int) : List OffsetChange → Int → Int
  | [], _ => offset
  | c :: rest, second => if second < c.second then offset else offsetFrom c.offset rest second

/-- The zone's offset at a second of universal time. -/
def offsetAt (z : Zone) (second : Int) : Int := offsetFrom z.base z.changes second

/-- The date that the zone's calendar shows at an instant, if there is one. -/
def localDate? (z : Zone) (t : Instant) : Option Date :=
  Date.ofDay? ((t.second + z.offsetAt t.second) / secondsPerDay)

/-- The seconds from `since?` on at which the clock shows `clock`: one for
each period whose span holds `clock` less the period's offset. -/
def showsFrom (since? : Option Int) (offset : Int) (clock : Int) : List OffsetChange → List Int
  | [] => if since?.all (· ≤ clock - offset) then [clock - offset] else []
  | c :: rest =>
    (if since?.all (· ≤ clock - offset) && clock - offset < c.second then [clock - offset] else []) ++
      showsFrom (some c.second) c.offset clock rest

/-- The seconds of universal time at which the zone's clock shows `clock`
(a local time in seconds since 1970-01-01), in order. -/
def shows (z : Zone) (clock : Int) : List Int := showsFrom none z.base clock z.changes

/-- The earliest instant at which the zone's clock shows `clock`. -/
def earliest? (z : Zone) (clock : Int) : Option Instant :=
  (z.shows clock).head?.bind (Instant.ofParts? · 0)

/-- How many quarters of an hour after midnight a day may start. -/
def latestStart : Nat := 12

/-- The first instant of a local date. -/
def startOfDay (z : Zone) (d : Date) : Except ZoneError Instant :=
  match (List.range (latestStart + 1)).findSome? fun quarter : Nat =>
      z.earliest? (d.day * secondsPerDay + quarter * 900) with
  | some start => .ok start
  | none => .error (.noStartOfDay d z.name)

/-- The first instant of the date after a local date: its exclusive end. -/
def startOfNextDay (z : Zone) (d : Date) : Except ZoneError Instant :=
  match d.next? with
  | some next => z.startOfDay next
  | none => .error (.noStartOfDay d z.name)

/-- The changes come in order of time. -/
def Sorted (z : Zone) : Prop := z.changes.Pairwise fun a b => a.second < b.second

instance (z : Zone) : Decidable z.Sorted := by unfold Sorted; infer_instance

theorem offsetFrom_showsFrom {since? : Option Int} {offset clock : Int} {changes : List OffsetChange}
    (sorted : changes.Pairwise fun a b => a.second < b.second)
    (after : ∀ s ∈ since?, ∀ c ∈ changes, s < c.second) {second : Int}
    (mem : second ∈ showsFrom since? offset clock changes) :
    since?.all (· ≤ second) = true ∧ offsetFrom offset changes second = clock - second := by
  induction changes generalizing since? offset with
  | nil =>
    simp only [showsFrom] at mem
    split at mem
    · next h =>
      simp only [List.mem_singleton] at mem
      subst mem
      exact ⟨h, by rw [offsetFrom]; omega⟩
    · simp at mem
  | cons c rest ih =>
    rw [List.pairwise_cons] at sorted
    simp only [showsFrom, List.mem_append] at mem
    rcases mem with mem | mem
    · split at mem
      · next h =>
        simp only [Bool.and_eq_true, decide_eq_true_eq] at h
        simp only [List.mem_singleton] at mem
        subst mem
        refine ⟨h.1, ?_⟩
        rw [offsetFrom, if_pos h.2]
        omega
      · simp at mem
    · have ⟨h, eq⟩ := ih sorted.2 (by simpa using sorted.1) mem
      simp only [Option.all_some, decide_eq_true_eq] at h
      refine ⟨?_, by rw [offsetFrom, if_neg (by omega), eq]⟩
      cases since? with
      | none => rfl
      | some s =>
        have := after s rfl c (List.mem_cons_self ..)
        simp only [Option.all_some, decide_eq_true_eq]
        omega

/-- At every second found for a reading of the clock, the clock shows it. -/
theorem mem_shows {z : Zone} (sorted : z.Sorted) {clock second : Int}
    (mem : second ∈ z.shows clock) : second + z.offsetAt second = clock := by
  have := (offsetFrom_showsFrom sorted (by simp) mem).2
  unfold offsetAt
  omega

end Zone
end UsageDiary
