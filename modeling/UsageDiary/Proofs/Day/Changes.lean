import UsageDiary.Proofs.Store.Made

/-!
# Days through changes

A day is opened without activities or restored with a list of them. Then
activities are added to it and extended, in any order; a change that would
break a rule is refused. What the day holds is told by the activities that
were given to it, in the order they were given and with the ends they have
by now: its list is these in order of their starts (`Day.Listed`). Each way
to change a day keeps this (`Day.Listed.add`, `Day.Listed.extend`), and so
do changes one after the other (`Day.Listed.after`).

So the list stays sorted, nothing is lost or held twice, and the activity of
a device that starts last is found, the latest given of equals
(`Day.keeps_after`).
-/

namespace UsageDiary

namespace Day

/-- A change that is asked of a day. -/
inductive Change where
  | add (a : Activity)
  | extend (id : Id) (ends : Instant)

/-- The changed day, or the rule that the change would break. -/
def Change.apply (d : Day) : Change → Except Violation Day
  | add a => d.add a
  | extend id ends => (d.extend id ends).map Prod.fst

/-- The day after a change was asked of it: a refused change leaves it as
it is. -/
def Change.next (d : Day) (c : Change) : Day :=
  match c.apply d with
  | .ok d' => d'
  | .error _ => d

/-- The activity that a change adds, unless it is refused. -/
def Change.given (d : Day) : Change → List Activity
  | add a => if (d.add a).isOk then [a] else []
  | extend .. => []

/-- The day after changes were asked of it, one after the other. -/
def after (d : Day) (changes : List Change) : Day := changes.foldl Change.next d

/-- The activities that changes add, one after the other. -/
def added (d : Day) : List Change → List Activity
  | [] => []
  | c :: rest => c.given d ++ (c.next d).added rest

/-- A day that was opened, or restored with activities given to it. -/
inductive Begun : List Activity → Day → Prop where
  | opened {id user goal : Id} {zone : Zone} {date : Date} {d : Day}
      (h : create id user goal zone date = .ok d) : Begun [] d
  | restored {id user goal : Id} {zone : Zone} {date : Date} {given : List Activity} {d : Day}
      (h : restore id user goal zone date given = .ok d) : Begun given d

/-- Among activities in the order they were given, the one of a device with
the greatest start, the last of equals. -/
def IsLatest (device : Option Id) (given : List Activity) (a : Activity) : Prop :=
  ∃ before behind, given = before ++ a :: behind ∧ a.device = device ∧
    (∀ b ∈ before, b.device = device → b.starts ≤ a.starts) ∧
    ∀ b ∈ behind, b.device = device → b.starts < a.starts

/-- What a day that began as `d` is by now, by all the activities that were
given to it: they are its list, each of them once, with their ends alone
moved and only forward; which one is the last of its device goes by the
order they were given in. -/
structure Keeps (given : List Activity) (d d' : Day) : Prop where
  frame : d' = { d with activities := d'.activities }
  sorted : d'.activities.Pairwise fun a b => a.starts ≤ b.starts
  list : ∃ now, given.Forall₂ Activity.Grows now ∧ d'.activities.Perm now ∧
    ∀ device, (∀ a, d'.last? device = some a ↔ IsLatest device now a) ∧
      (d'.last? device = none ↔ ∀ a ∈ d'.activities, a.device ≠ device)

/-! ## The last activity of a device -/

section Latest

variable {device : Option Id} {as bs : List Activity} {a : Activity}

theorem foldl_laterStart_le {best? : Option Activity} (best : ∀ b ∈ best?, b.starts ≤ a.starts)
    (h : ∀ b ∈ bs, b.starts ≤ a.starts) : ∀ b ∈ bs.foldl laterStart best?, b.starts ≤ a.starts := by
  induction bs generalizing best? with
  | nil => exact best
  | cons c rest ih =>
    refine ih (fun b hb => ?_) fun b hb => h b (List.mem_cons_of_mem c hb)
    have hc := h c List.mem_cons_self
    cases best? with
    | none => exact Option.mem_some_iff.mp hb ▸ hc
    | some first =>
      simp only [laterStart] at hb
      split at hb
      · exact Option.mem_some_iff.mp hb ▸ best first rfl
      · exact Option.mem_some_iff.mp hb ▸ hc

theorem foldl_laterStart_of_lt (h : ∀ b ∈ bs, b.starts < a.starts) :
    bs.foldl laterStart (some a) = some a := by
  induction bs with
  | nil => rfl
  | cons b rest ih =>
    rw [List.foldl_cons, laterStart, if_pos (h b List.mem_cons_self)]
    exact ih fun c hc => h c (List.mem_cons_of_mem b hc)

theorem exists_isLatest (h : ∃ a ∈ as, a.device = device) : ∃ a, IsLatest device as a := by
  induction as using List.reverseRecOn with
  | nil => simp at h
  | append_singleton as x ih =>
    by_cases earlier : ∃ a ∈ as, a.device = device
    · obtain ⟨a, before, behind, rfl, same, hbefore, hbehind⟩ := ih earlier
      by_cases later : x.device = device ∧ a.starts ≤ x.starts
      · refine ⟨x, before ++ a :: behind, [], rfl, later.1, fun b hb hdevice => ?_, by simp⟩
        refine le_trans ?_ later.2
        rcases List.mem_append.mp hb with hb | hb
        · exact hbefore b hb hdevice
        · rcases List.mem_cons.mp hb with rfl | hb
          · exact le_refl _
          · exact le_of_lt (hbehind b hb hdevice)
      · refine ⟨a, before, behind ++ [x], by simp, same, hbefore, fun b hb hdevice => ?_⟩
        rcases List.mem_append.mp hb with hb | hb
        · exact hbehind b hb hdevice
        · rw [List.mem_singleton] at hb
          subst hb
          exact lt_of_not_ge fun le => later ⟨hdevice, le⟩
    · obtain ⟨a, ha, same⟩ := h
      rcases List.mem_append.mp ha with ha | ha
      · exact absurd ⟨a, ha, same⟩ earlier
      · rw [List.mem_singleton] at ha
        subst ha
        exact ⟨a, as, [], rfl, same, fun b hb hdevice => absurd ⟨b, hb, hdevice⟩ earlier, by simp⟩

/-- The last of a device is what remains when each activity is compared with
the ones given after it. -/
theorem IsLatest.foldl_eq (h : IsLatest device as a) :
    (as.filter (·.device == device)).foldl laterStart none = some a := by
  obtain ⟨before, behind, rfl, same, hbefore, hbehind⟩ := h
  have mem {b : Activity} {bs : List Activity} (hb : b ∈ bs.filter (·.device == device)) :
      b ∈ bs ∧ b.device = device := by simpa using hb
  have best : ∀ b ∈ (before.filter (·.device == device)).foldl laterStart none, b.starts ≤ a.starts :=
    foldl_laterStart_le (by simp) fun b hb => hbefore b (mem hb).1 (mem hb).2
  rw [List.filter_append, List.filter_cons_of_pos (by simpa using same), List.foldl_append,
    List.foldl_cons]
  have next : laterStart ((before.filter (·.device == device)).foldl laterStart none) a = some a := by
    cases found : (before.filter (·.device == device)).foldl laterStart none with
    | none => rfl
    | some b => exact if_neg (not_lt_of_ge (best b found))
  rw [next]
  exact foldl_laterStart_of_lt fun b hb => hbehind b (mem hb).1 (mem hb).2

theorem last?_eq_none_iff (d : Day) (device : Option Id) :
    d.last? device = none ↔ ∀ a ∈ d.activities, a.device ≠ device := by
  unfold last?
  simp only [List.find?_eq_none, List.mem_reverse, beq_iff_eq, ne_eq]

theorem last?_inOrder_eq_some_iff {d : Day} (h : d.activities = inOrder as) :
    d.last? device = some a ↔ IsLatest device as a := by
  have fold : d.last? device = (as.filter (·.device == device)).foldl laterStart none := by
    unfold last?
    rw [h, find?_reverse_inOrder]
  refine ⟨fun found => ?_, fun latest => fold.trans latest.foldl_eq⟩
  have used : ∃ b ∈ as, b.device = device := by
    refine ⟨a, (perm_inOrder as).mem_iff.mp (h ▸ mem_of_last? found), ?_⟩
    simpa using List.find?_some found
  obtain ⟨b, latest⟩ := exists_isLatest used
  rw [fold, latest.foldl_eq, Option.some.injEq] at found
  exact found ▸ latest

end Latest

/-! ## What changes keep -/

/-- The list of a day is the activities given to it, as they are by now, in
order of their starts. -/
def Listed (given : List Activity) (d : Day) : Prop :=
  ∃ now, given.Forall₂ Activity.Grows now ∧ d.activities = inOrder now

theorem map_id_of_grows {as bs : List Activity} (h : as.Forall₂ Activity.Grows bs) :
    bs.map (·.id) = as.map (·.id) := by
  induction h with
  | nil => rfl
  | cons grows _ ih => rw [List.map_cons, List.map_cons, ih, grows.id]

theorem Begun.activities_eq {given : List Activity} {d : Day} (h : Begun given d) :
    d.activities = inOrder given := by
  cases h with
  | opened h => rw [(create_eq_ok h).2.2]; rfl
  | restored h =>
    obtain ⟨empty, -, rfl⟩ := restore_eq h
    rfl

theorem Begun.listed {given : List Activity} {d : Day} (h : Begun given d) : Listed given d :=
  ⟨given, List.forall₂_same.mpr fun a _ => .refl a, h.activities_eq⟩

/-- What a change does to a day, and the activities that it gives to it. -/
inductive Change.Step (d : Day) : Change → List Activity → Day → Prop where
  | added {a : Activity} {d' : Day} (h : d.add a = .ok d') : Step d (.add a) [a] d'
  | extended {id : Id} {ends : Instant} {d' : Day} {a : Activity}
      (h : d.extend id ends = .ok (d', a)) : Step d (.extend id ends) [] d'
  | refused {c : Change} {v : Violation} (h : c.apply d = .error v) : Step d c [] d

theorem Change.step (d : Day) (c : Change) : Step d c (c.given d) (c.next d) := by
  cases c with
  | add a =>
    cases h : d.add a with
    | ok d' => simpa [given, next, apply, h, Except.isOk, Except.toBool] using Step.added h
    | error v =>
      have refused : Change.apply d (.add a) = .error v := h
      simpa [given, next, apply, h, Except.isOk, Except.toBool] using Step.refused refused
  | extend id ends =>
    cases h : d.extend id ends with
    | ok r => simpa [given, next, apply, h, Except.map] using Step.extended h
    | error v =>
      have refused : Change.apply d (.extend id ends) = .error v := by rw [apply, h]; rfl
      simpa [given, next, refused] using Step.refused refused

namespace Listed

variable {given : List Activity} {d d' : Day}

theorem add (h : Listed given d) {a : Activity} (added : d.add a = .ok d') :
    Listed (given ++ [a]) d' := by
  obtain ⟨now, grown, list⟩ := h
  obtain ⟨-, rfl⟩ := add_eq added
  refine ⟨now ++ [a], List.rel_append grown (.cons (.refl a) .nil), ?_⟩
  rw [inOrder_append, ← list]

/-- The activity with an id is the same in the list and among those given,
since ids are distinct. -/
theorem extend (h : Listed given d) (distinct : (given.map (·.id)).Nodup) {id : Id} {ends : Instant}
    {a : Activity} (extended : d.extend id ends = .ok (d', a)) : Listed given d' := by
  obtain ⟨now, grown, list⟩ := h
  let f (b : Activity) : Activity := if b.id = id then b.extendTo ends else b
  have grows (b : Activity) : b.Grows (f b) := by
    simp only [f]
    split
    · exact b.grows_extendTo ends
    · exact .refl b
  have ids := map_id_of_grows grown
  have distinct' : ((inOrder now).map (·.id)).Nodup :=
    ((perm_inOrder now).map _).nodup_iff.mpr (ids ▸ distinct)
  rw [extend_unfold extended]
  refine ⟨now.map f, List.forall₂_map_right_iff.mpr (grown.imp fun a b h => h.trans (grows b)), ?_⟩
  show updateFirst id (·.extendTo ends) d.activities = _
  rw [list, updateFirst_eq_map distinct', ← map_inOrder fun b => (grows b).starts]

theorem step (h : Listed given d) {c : Change} {as : List Activity} (step : c.Step d as d')
    (distinct : ((given ++ as).map (·.id)).Nodup) : Listed (given ++ as) d' := by
  cases step with
  | added added => exact h.add added
  | extended extended =>
    rw [List.append_nil] at distinct ⊢
    exact h.extend distinct extended
  | refused =>
    rw [List.append_nil]
    exact h

/-- By induction on the changes: each gives to the day what it adds. -/
theorem after {changes : List Change} (h : Listed given d)
    (distinct : ((given ++ d.added changes).map (·.id)).Nodup) :
    Listed (given ++ d.added changes) (d.after changes) := by
  induction changes generalizing given d with
  | nil => exact (List.append_nil given).symm ▸ h
  | cons c rest ih =>
    rw [added, ← List.append_assoc] at distinct ⊢
    have first := distinct
    rw [List.map_append, List.nodup_append] at first
    exact ih (h.step (c.step d) first.1) distinct

end Listed

theorem Change.Step.grows {d d' : Day} {c : Change} {as : List Activity} (h : c.Step d as d') :
    d.Grows d' := by
  cases h with
  | added added => exact grows_of_add added
  | extended extended => exact grows_of_extend extended
  | refused => exact .refl d

theorem grows_after (d : Day) (changes : List Change) : d.Grows (d.after changes) := by
  induction changes generalizing d with
  | nil => exact .refl d
  | cons c rest ih => exact (c.step d).grows.trans (ih (c.next d))

theorem Grows.frame {d d' : Day} (h : d.Grows d') : d' = { d with activities := d'.activities } := by
  obtain ⟨id, user, goal, date, zone, starts, ends, activities⟩ := d'
  obtain ⟨rfl, rfl, rfl, rfl, rfl, rfl, rfl, -⟩ := h
  rfl

/-- The activities of a day lie in it. -/
def Inside (d : Day) : Prop := ∀ a ∈ d.activities, d.contains a.starts a.ends = true

theorem mem_updateFirst {id : Id} {f : Activity → Activity} {as : List Activity} {a : Activity}
    (h : a ∈ updateFirst id f as) : a ∈ as ∨ ∃ b ∈ as, a = f b := by
  induction as with
  | nil => cases h
  | cons b rest ih =>
    rw [updateFirst] at h
    split at h
    · rcases List.mem_cons.mp h with rfl | h
      · exact .inr ⟨b, List.mem_cons_self, rfl⟩
      · exact .inl (List.mem_cons_of_mem b h)
    · rcases List.mem_cons.mp h with rfl | h
      · exact .inl List.mem_cons_self
      · rcases ih h with h | ⟨c, hc, same⟩
        · exact .inl (List.mem_cons_of_mem b h)
        · exact .inr ⟨c, List.mem_cons_of_mem b hc, same⟩

/-- The end of an activity moves no further than that of the day. -/
theorem contains_extendTo {d : Day} {a : Activity} {ends : Instant} (h : d.contains a.starts a.ends = true)
    (fits : ends ≤ d.ends) : d.contains (a.extendTo ends).starts (a.extendTo ends).ends = true := by
  unfold Activity.extendTo
  split
  · next longer =>
    simp only [contains, Bool.and_eq_true, decide_eq_true_eq] at h ⊢
    exact ⟨⟨le_trans h.1.1 (le_of_lt longer), h.1.2⟩, fits⟩
  · exact h

theorem Inside.step {d d' : Day} (h : d.Inside) {c : Change} {as : List Activity}
    (step : c.Step d as d') : d'.Inside := by
  cases step with
  | added added =>
    unfold add at added
    split at added
    · next fits =>
      cases added
      intro b hb
      rcases List.mem_cons.mp ((perm_insert _ d.activities).mem_iff.mp hb) with rfl | hb
      · exact fits
      · exact h b hb
    · cases added
  | extended extended =>
    unfold extend at extended
    split at extended
    · cases extended
    · split at extended
      · cases extended
      · next fits =>
        cases extended
        intro b hb
        rcases mem_updateFirst hb with hb | ⟨c, hc, rfl⟩
        · exact h b hb
        · exact contains_extendTo (h c hc) (le_of_not_gt fits)
  | refused => exact h

theorem Inside.after {d : Day} (h : d.Inside) (changes : List Change) : (d.after changes).Inside := by
  induction changes generalizing d with
  | nil => exact h
  | cons c rest ih => exact ih (h.step (c.step d))

/-- A day through changes: its list is the activities given to it in order
of their starts, each once, and of a device the one that starts last is
found, the latest given of equals. A refused change leaves the day as it is,
and any later change only adds activities or moves ends forward. If the
activities at the start lay in the day, all do. -/
theorem keeps_after {given : List Activity} {d : Day} (begun : Begun given d) (changes : List Change)
    (distinct : ((given ++ d.added changes).map (·.id)).Nodup) :
    Keeps (given ++ d.added changes) d (d.after changes) ∧
    (∀ c v, Change.apply (d.after changes) c = .error v → c.next (d.after changes) = d.after changes) ∧
    (∀ later, (d.after changes).Grows ((d.after changes).after later)) ∧
    ((∀ a ∈ given, d.contains a.starts a.ends = true) →
      ∀ a ∈ (d.after changes).activities, d.contains a.starts a.ends = true) := by
  have frame := (grows_after d changes).frame
  refine ⟨?_, fun c v refused => by rw [Change.next, refused], grows_after _, fun inside => ?_⟩
  · obtain ⟨now, grown, list⟩ := begun.listed.after distinct
    refine ⟨frame, list ▸ sorted_inOrder now, now, grown, list ▸ perm_inOrder now, fun device => ?_⟩
    exact ⟨fun a => last?_inOrder_eq_some_iff list, last?_eq_none_iff _ device⟩
  · have start : d.Inside := by
      intro a ha
      rw [begun.activities_eq] at ha
      exact inside a ((perm_inOrder given).mem_iff.mp ha)
    have all := start.after changes
    unfold Inside at all
    rw [frame] at all
    exact all

end Day

namespace Sample

/-- The instant a number of minutes after the start of 2025-01-07 in
universal time. -/
def minute (n : Int) : Instant := (Instant.ofParts? (1736208000 + n * 60) 0).getD .epoch

/-- An activity of no device from one minute to another. -/
def noted (id : Nat) (starts ends : Int) : Activity := ⟨⟨id⟩, minute starts, minute ends, none, none⟩

/-- Three activities, not in order of their starts. -/
def notes : List Activity := [noted 11 600 605, noted 12 540 541, noted 13 600 602]

/-- The day they are given to. -/
def notedDay : Day where
  id := ⟨1⟩
  user := ⟨2⟩
  goal := ⟨3⟩
  date := (Date.ofDay? 20095).getD .epoch
  zone := .utc
  starts := minute 0
  ends := minute 1440
  activities := [noted 12 540 541, noted 11 600 605, noted 13 600 602]

/-- An activity is added at a start that two have already, and one of these
is extended; an activity beyond the day and an unknown one are refused. -/
def noteChanges : List Day.Change :=
  [.add (noted 14 600 601), .extend ⟨13⟩ (minute 610), .add (noted 15 1439 1441),
    .extend ⟨15⟩ (minute 1440)]

/-- The last activity is the one added at last, though others start with it
and end later. -/
theorem added_last_among_equals : Day.Begun notes notedDay ∧
    notedDay.added noteChanges = [noted 14 600 601] ∧
    Day.Keeps (notes ++ [noted 14 600 601]) notedDay (notedDay.after noteChanges) ∧
    (notedDay.after noteChanges).last? none = some (noted 14 600 601) ∧
    ∀ a ∈ (notedDay.after noteChanges).activities, notedDay.contains a.starts a.ends = true := by
  have restored : Day.restore ⟨1⟩ ⟨2⟩ ⟨3⟩ .utc notedDay.date notes = .ok notedDay := by decide +kernel
  have added : notedDay.added noteChanges = [noted 14 600 601] := by decide +kernel
  obtain ⟨keeps, -, -, inside⟩ :=
    Day.keeps_after (.restored restored) noteChanges (added ▸ by decide +kernel)
  rw [added] at keeps
  exact ⟨.restored restored, added, keeps, by decide +kernel, inside (by decide +kernel)⟩

end Sample
end UsageDiary
