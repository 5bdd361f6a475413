import UsageDiary.Day

/-!
# The cache of last days

For each user and goal a slot with the last day, once it was looked up, and
a mark while that day still has to be attached to its week. Main statement:
a slot that was written is read back (`Cache.slot_set`), and other slots
stay as they were (`Cache.slot_set_of_ne`).
-/

namespace UsageDiary

/-- What is remembered of a user and goal. -/
structure Slot where
  day : Option Day := none
  /-- The last day was looked up. -/
  loaded : Bool := false
  /-- The day has still to be attached to its week. -/
  weekPending : Bool := false
deriving DecidableEq

namespace Slot

/-- The slot after the last day was looked up. -/
def load (_ : Slot) (day : Option Day) : Slot := ⟨day, true, day.isSome⟩

/-- The slot after a day was written; a day of another id has still to be
attached. -/
def replace (s : Slot) (day : Day) : Slot :=
  ⟨some day, true, s.weekPending || s.day.map (·.id) != some day.id⟩

/-- The slot after its day was attached. -/
def markAttached (s : Slot) : Slot := { s with weekPending := false }

end Slot

/-- The slots by user and goal. -/
abbrev Cache := List ((Id × Id) × Slot)

namespace Cache

/-- The slot of a user and goal; an empty one where there is none. -/
def slot (c : Cache) (user goal : Id) : Slot :=
  match c with
  | [] => {}
  | (k, s) :: rest => if k = (user, goal) then s else slot rest user goal

/-- Sets the slot of a user and goal. -/
def set (c : Cache) (user goal : Id) (s : Slot) : Cache :=
  match c with
  | [] => [((user, goal), s)]
  | (k, t) :: rest => if k = (user, goal) then (k, s) :: rest else (k, t) :: set rest user goal s

/-- Empties the slots of a user; says how many there were. -/
def invalidate (c : Cache) (user : Id) : Nat × Cache :=
  (c.countP (·.1.1 == user), c.map fun (k, s) => (k, if k.1 = user then {} else s))

/-- The report of emptied slots. -/
def invalidated (user : Id) (count : Nat) : LogEvent :=
  ⟨.debug, "Invalidated day activity cache",
    [("user_anonymized_id", .shown user), ("reset", .int count)]⟩

@[simp] theorem slot_set (c : Cache) (user goal : Id) (s : Slot) :
    (c.set user goal s).slot user goal = s := by
  induction c with
  | nil => simp [set, slot]
  | cons e rest ih => simp only [set]; split <;> simp_all [slot]

theorem slot_set_of_ne (c : Cache) {user goal user' goal' : Id} (s : Slot)
    (h : (user', goal') ≠ (user, goal)) :
    (c.set user goal s).slot user' goal' = c.slot user' goal' := by
  induction c with
  | nil => simp [set, slot, Ne.symm h]
  | cons e rest ih => simp only [set]; split <;> simp_all [slot, Ne.symm h]

end Cache
end UsageDiary
