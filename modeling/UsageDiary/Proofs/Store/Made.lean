import UsageDiary.Proofs.Day.Tidy
import UsageDiary.Proofs.Json.Forms
import UsageDiary.Proofs.Week.Entries
import UsageDiary.Store.Table

/-!
# Days and weeks that can be kept

How days and weeks come about (`Day.Made`, `Week.Made`): they are opened or
restored, and then activities are added and extended, or days attached. So
the bounds of a day are those of its date and its activities are in order,
and restoring a day from its own parts gives it back (`Day.Made.restored`);
the dates of a week are in order as well (`Week.Made.byDate`). A zone of a
directory is found by its name (`Zone.Directory.parse_name`).
-/

namespace UsageDiary

/-! ## Days -/

/-- A day that was opened or restored, with activities added and extended. -/
inductive Day.Made : Day → Prop
  | create {id user goal : Id} {zone : Zone} {date : Date} {d : Day} :
      Day.create id user goal zone date = .ok d → Made d
  | restore {id user goal : Id} {zone : Zone} {date : Date} {as : List Activity} {d : Day} :
      Day.restore id user goal zone date as = .ok d → Made d
  | add {d d' : Day} {a : Activity} : Made d → d.add a = .ok d' → Made d'
  | extend {d d' : Day} {id : Id} {ends : Instant} {a : Activity} :
      Made d → d.extend id ends = .ok (d', a) → Made d'

namespace Day

theorem restore_eq {id user goal : Id} {zone : Zone} {date : Date} {as : List Activity} {d : Day}
    (h : restore id user goal zone date as = .ok d) :
    ∃ empty, create id user goal zone date = .ok empty ∧ d = { empty with activities := inOrder as } := by
  unfold restore at h
  cases opened : create id user goal zone date with
  | error e => rw [opened] at h; cases h
  | ok empty => rw [opened] at h; cases h; exact ⟨empty, rfl, rfl⟩

theorem create_of_bounded {d : Day} (h : d.Bounded) :
    create d.id d.user d.goal d.zone d.date = .ok { d with activities := [] } := by
  rw [create, h.starts, h.ends]
  rfl

theorem starts_updateFirst {f : Activity → Activity} (hf : ∀ a, (f a).starts = a.starts) (id : Id)
    (as : List Activity) : (updateFirst id f as).map (·.starts) = as.map (·.starts) := by
  induction as with
  | nil => rfl
  | cons a rest ih =>
    rw [updateFirst]
    split
    · rw [List.map_cons, List.map_cons, hf]
    · rw [List.map_cons, List.map_cons, ih]

theorem sorted_iff {as : List Activity} : Sorted as ↔ (as.map (·.starts)).Pairwise (· ≤ ·) :=
  List.pairwise_map.symm

theorem extend_unfold {d d' : Day} {id : Id} {ends : Instant} {a : Activity}
    (h : d.extend id ends = .ok (d', a)) :
    d' = { d with activities := updateFirst id (·.extendTo ends) d.activities } := by
  unfold extend at h
  split at h
  · cases h
  · split at h
    · cases h
    · cases h; rfl

namespace Made

variable {d : Day}

theorem bounded (h : d.Made) : d.Bounded := by
  induction h with
  | create opened => exact bounded_of_create opened
  | restore restored =>
    obtain ⟨empty, opened, rfl⟩ := restore_eq restored
    obtain ⟨starts, ends⟩ := bounded_of_create opened
    exact ⟨starts, ends⟩
  | add _ added ih =>
    obtain ⟨-, rfl⟩ := add_eq added
    exact ⟨ih.starts, ih.ends⟩
  | extend _ extended ih =>
    rw [extend_unfold extended]
    exact ⟨ih.starts, ih.ends⟩

theorem sorted (h : d.Made) : Sorted d.activities := by
  induction h with
  | create opened =>
    rw [(create_eq_ok opened).2.2]
    exact .nil
  | restore restored =>
    obtain ⟨empty, -, rfl⟩ := restore_eq restored
    exact sorted_inOrder _
  | add _ added ih =>
    obtain ⟨-, rfl⟩ := add_eq added
    exact sorted_insert _ ih
  | extend _ extended ih =>
    have starts (a : Activity) (ends : Instant) : (a.extendTo ends).starts = a.starts := by
      unfold Activity.extendTo
      split <;> rfl
    rw [extend_unfold extended, sorted_iff, starts_updateFirst fun a => starts a _]
    exact sorted_iff.mp ih

/-- A day is restored from its own parts. -/
theorem restored (h : d.Made) :
    Day.restore d.id d.user d.goal d.zone d.date d.activities = .ok d := by
  rw [Day.restore, create_of_bounded h.bounded, inOrder_of_sorted h.sorted]
  rfl

end Made
end Day

/-! ## Weeks -/

/-- A week that was opened or restored, with days attached. -/
inductive Week.Made : Week → Prop
  | create (id user goal : Id) (weekStart : Date) (zone : Zone) :
      Made (Week.create id user goal weekStart zone)
  | restore (id user goal : Id) (weekStart : Date) (zone : Zone) (days : List (Date × Id)) :
      Made ⟨id, user, goal, weekStart, zone, Week.byDate days⟩
  | attach {w w' : Week} {day : Day} {changed : Bool} :
      Made w → w.attach day = .ok (changed, w') → Made w'

namespace Week

/-- The dates of the days ascend. -/
def Ascending (days : List (Date × Id)) : Prop := days.Pairwise fun a b => a.1 < b.1

theorem ascending_put (date : Date) (id : Id) {days : List (Date × Id)} (h : Ascending days) :
    Ascending (put date id days) := by
  induction days with
  | nil => exact List.pairwise_singleton ..
  | cons p rest ih =>
    obtain ⟨e, x⟩ := p
    obtain ⟨later, ordered⟩ := List.pairwise_cons.mp h
    simp only [put]
    split
    · next lt =>
      refine List.pairwise_cons.mpr ⟨fun q hq => ?_, h⟩
      rcases List.mem_cons.mp hq with rfl | hq
      · exact lt
      · exact lt_trans lt (later q hq)
    · next ge =>
      split
      · next same =>
        subst same
        exact List.pairwise_cons.mpr ⟨later, ordered⟩
      · next ne =>
        refine List.pairwise_cons.mpr ⟨fun q hq => ?_, ih ordered⟩
        rcases mem_put hq with rfl | hq
        · exact lt_of_le_of_ne (le_of_not_gt ge) ne
        · exact later q hq

theorem ascending_byDate (days : List (Date × Id)) : Ascending (byDate days) := by
  induction days using List.reverseRecOn with
  | nil => exact .nil
  | append_singleton days day ih =>
    rw [byDate, List.foldl_append]
    exact ascending_put day.1 day.2 ih

theorem put_of_lt {date : Date} {id : Id} {days : List (Date × Id)} (h : ∀ day ∈ days, day.1 < date) :
    put date id days = days ++ [(date, id)] := by
  induction days with
  | nil => rfl
  | cons day rest ih =>
    have below := h day List.mem_cons_self
    rw [put, if_neg (not_lt_of_gt below), if_neg (ne_of_lt below),
      ih fun d hd => h d (List.mem_cons_of_mem day hd), List.cons_append]

/-- Days whose dates ascend stay as they are. -/
theorem byDate_of_ascending {days : List (Date × Id)} (h : Ascending days) : byDate days = days :=
  foldl_put_eq_self (fun _ _ => put_of_lt) h

theorem Made.ascending {w : Week} (h : w.Made) : Ascending w.days := by
  induction h with
  | create => exact .nil
  | restore id user goal weekStart zone days => exact ascending_byDate days
  | attach _ attached ih =>
    unfold Week.attach at attached
    split at attached
    · cases attached
    · split at attached
      · cases attached
      · cases attached
        exact ascending_put _ _ ih

theorem Made.byDate {w : Week} (h : w.Made) : Week.byDate w.days = w.days :=
  byDate_of_ascending h.ascending

end Week

/-! ## Zones -/

/-- A zone of the directory is found by its name. -/
theorem Zone.Directory.parse_name {dir : Directory} {z : Zone} (h : z ∈ dir.zones) :
    dir.parse z.name = .ok z := by
  have trimmed : Text.trimmed z.name = z.name := by
    rw [Text.trimmed, dir.trimmed z h, String.ofList_toList]
  have found : dir.find? z.name = some z := by
    unfold find?
    cases look : dir.zones.find? (·.name == z.name) with
    | none =>
      rw [List.find?_eq_none] at look
      exact absurd (beq_self_eq_true z.name) (look z h)
    | some y =>
      have same : y.name = z.name := by simpa using List.find?_some look
      rw [List.inj_on_of_nodup_map dir.distinct (List.mem_of_find?_eq_some look) h same]
  simp only [parse, trimmed, dir.named z h, if_false, found]

end UsageDiary
