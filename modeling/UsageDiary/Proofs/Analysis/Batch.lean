import Mathlib.Data.List.Pairwise
import UsageDiary.Proofs.Analysis.Quiet
import UsageDiary.Proofs.Analysis.Recorded
import UsageDiary.Proofs.Analysis.Since

/-!
# A report is its uses in order

A device's report is analyzed as its uses would be one at a time, in order
of their starts (`Analyzer.oneByOne`), and so neither the order in which the
device reports them nor a shift of all its times makes a difference
(`report_analyzed_in_order`).

Outside leap seconds the offset of the device's clock can be taken out
before or after the uses are put in order (`Analyzer.mapM_inOrder`). Past
that an analysis is work on one use after the other (`Analyzer.inTurn`),
with reports in between that nothing takes notice of.
-/

namespace UsageDiary

/-- A use that does not end before it starts, outside leap seconds. -/
structure AppUse.Plain (u : AppUse) : Prop where
  ordered : u.starts ≤ u.ends
  starts : u.starts.Ordinary
  ends : u.ends.Ordinary

instance (u : AppUse) : Decidable u.Plain :=
  decidable_of_iff (u.starts ≤ u.ends ∧ u.starts.Ordinary ∧ u.ends.Ordinary)
    ⟨fun ⟨ordered, starts, ends⟩ => ⟨ordered, starts, ends⟩, fun h => ⟨h.ordered, h.starts, h.ends⟩⟩

/-- A use with its times moved by a length of time. -/
structure AppUse.Moved (d : Duration) (u u' : AppUse) : Prop where
  application : u'.application = u.application
  starts : u.starts.shift? d = some u'.starts
  ends : u.ends.shift? d = some u'.ends

theorem AppUse.Moved.plain {d : Duration} {u u' : AppUse} (moved : u.Moved d u') (plain : u.Plain) :
    u'.Plain where
  ordered := (Instant.shift?_le_iff plain.starts plain.ends moved.starts moved.ends).mp plain.ordered
  starts := (Instant.shift?_of_ordinary plain.starts moved.starts).1
  ends := (Instant.shift?_of_ordinary plain.ends moved.ends).1

/-- A report with all its times moved by a length of time. -/
structure AppReport.Moved (d : Duration) (r r' : AppReport) : Prop where
  deviceTime : r.deviceTime.shift? d = some r'.deviceTime
  device : r'.device = r.device
  uses : r.uses.Forall₂ (AppUse.Moved d) r'.uses

/-- The offset of the device's clock moves with the report. -/
theorem AppReport.Moved.offset {d tolerance : Duration} {r r' : AppReport} {now : Instant}
    (moved : r.Moved d r') (device : r.deviceTime.Ordinary) (clock : now.Ordinary)
    (before : tolerance < ((r.deviceTime.since now).natAbs : Int))
    (after : tolerance < ((r'.deviceTime.since now).natAbs : Int)) :
    DeviceClock.offset tolerance now r'.deviceTime = DeviceClock.offset tolerance now r.deviceTime + d := by
  simp only [DeviceClock.offset, if_neg (Int.not_le.mpr before), if_neg (Int.not_le.mpr after)]
  exact Instant.since_of_shift? device clock moved.deviceTime

theorem AppReport.Moved.plain {d : Duration} {r r' : AppReport} (moved : r.Moved d r')
    (plain : ∀ u ∈ r.uses, u.Plain) : ∀ u ∈ r'.uses, u.Plain := by
  have both := (List.forall₂_and_left r.uses r'.uses).mpr ⟨plain, moved.uses⟩
  have flipped : r'.uses.Forall₂ (fun u' u => u'.Plain ∧ u.Moved d u') r.uses :=
    (both.imp fun _ _ ⟨plain, moved⟩ => ⟨moved.plain plain, moved⟩).flip
  exact ((List.forall₂_and_left _ _).mp flipped).1

namespace Analyzer

variable {us us' : List AppUse} {u u' v v' : AppUse} {offset : Duration}

/-! ## Taking the offset out -/

theorem correctUse_of_corrects (h : Corrects offset u u') : correctUse offset u = pure u' := by
  obtain ⟨starts, ends, corrected, rfl⟩ := h
  unfold correctUse
  rw [corrected]
  rfl

theorem correctUse_of_none (h : DeviceClock.correct? u.starts u.ends offset = none) :
    correctUse offset u = throw .outOfRange := by
  unfold correctUse
  rw [h]
  rfl

theorem mapM_correctUse (h : us.Forall₂ (Corrects offset) us') : us.mapM (correctUse offset) = pure us' := by
  rw [Work.mapM_forall₂ (h.imp fun _ _ => correctUse_of_corrects), List.mapM_pure, List.map_id']

/-- The offset is taken out of every use, or one of them leaves the calendar. -/
theorem forall₂_corrects (offset : Duration) (us : List AppUse) :
    (∃ us', us.Forall₂ (Corrects offset) us') ∨
      ∃ u ∈ us, DeviceClock.correct? u.starts u.ends offset = none := by
  induction us with
  | nil => exact .inl ⟨[], .nil⟩
  | cons u rest ih =>
    cases hu : DeviceClock.correct? u.starts u.ends offset with
    | none => exact .inr ⟨u, List.mem_cons_self, hu⟩
    | some bounds =>
      refine ih.imp (fun ⟨rest', hrest⟩ => ?_) fun ⟨v, hv, out⟩ => ⟨v, List.mem_cons_of_mem u hv, out⟩
      exact ⟨{ u with starts := bounds.1, ends := bounds.2 } :: rest', .cons ⟨_, _, hu, rfl⟩ hrest⟩

theorem mapM_correctUse_of_none (hu : u ∈ us) (out : DeviceClock.correct? u.starts u.ends offset = none) :
    us.mapM (correctUse offset) = throw .outOfRange := by
  induction us with
  | nil => cases hu
  | cons v rest ih =>
    rw [List.mapM_cons]
    cases hv : DeviceClock.correct? v.starts v.ends offset with
    | none =>
      rw [correctUse_of_none hv]
      rfl
    | some bounds =>
      rw [correctUse_of_corrects ⟨_, _, hv, rfl⟩, pure_bind]
      rcases List.mem_cons.mp hu with rfl | hu
      · cases hv.symm.trans out
      · rw [ih hu]
        rfl

/-- The offset can be taken out before or after uses are put in order. -/
theorem mapM_inOrder {α : Type} (plain : ∀ u ∈ us, u.Plain) (k : List AppUse → Work α) :
    (us.mapM (correctUse offset) >>= fun us' => k (inOrder us')) =
      (inOrder us).mapM (correctUse offset) >>= k := by
  rcases forall₂_corrects offset us with ⟨us', h⟩ | ⟨u, hu, out⟩
  · have both : us.Forall₂ (fun u u' => u.Plain ∧ Corrects offset u u') us' :=
      (List.forall₂_and_left us us').mpr ⟨plain, h⟩
    have ordered := forall₂_inOrder (fun hu hv =>
      Instant.shift?_le_iff hu.1.starts hv.1.starts hu.2.moves.1 hv.2.moves.1) both
    rw [mapM_correctUse h, mapM_correctUse (ordered.imp fun _ _ => And.right), pure_bind, pure_bind]
  · rw [mapM_correctUse_of_none hu out, mapM_correctUse_of_none (mem_inOrder.mpr hu) out]
    rfl

/-! ## One use after the other -/

/-- Analyzes uses in the order given, once the offset of the device's clock
was taken out of all of them. -/
def inTurn (a : Analyzer) (user : User) (device : Option Id) (offset : Duration) (us : List AppUse) :
    Work Analysis := do
  let uses ← us.mapM (correctUse offset)
  let outcomes ← uses.mapM (a.use user device)
  return ⟨outcomes.flatten⟩

/-- Analyzes the uses of a report one at a time, as reports of their own, in
order of their starts, and puts the outcomes together; stops where one of
these analyses does. -/
def oneByOne (a : Analyzer) (user : User) (r : AppReport) : Work Analysis := do
  let outcomes ← (inOrder r.uses).mapM fun u => return (← a.app user { r with uses := [u] }).outcomes
  return ⟨outcomes.flatten⟩

variable (a : Analyzer) (user : User) (now : Instant) {r : AppReport}

/-- The analysis of a report whose uses do not end before they start. -/
theorem app_eq (plain : ∀ u ∈ r.uses, u.Plain) :
    a.app user r = (do
      let now := (← get).now
      (DeviceClock.reports a.tolerance now r.deviceTime).forM Work.report
      let analysis ← a.inTurn user r.device (DeviceClock.offset a.tolerance now r.deviceTime) (inOrder r.uses)
      Work.report (analysis.reportOf "App activity analyzed")
      return analysis) := by
  have accepted : (r.uses.find? fun u => u.ends < u.starts) = none := by
    simpa using fun u hu => (plain u hu).ordered
  unfold app appBy inTurn
  rw [accepted]
  refine bind_congr fun w => bind_congr fun _ => ?_
  simp only [bind_assoc, pure_bind]
  exact mapM_inOrder plain fun uses => do
    let outcomes ← uses.mapM (a.use user r.device)
    Work.report ((⟨outcomes.flatten⟩ : Analysis).reportOf "App activity analyzed")
    return (⟨outcomes.flatten⟩ : Analysis)

theorem heedless_inTurn (device : Option Id) (us : List AppUse) :
    Work.Heedless now (a.inTurn user device offset us) := by
  have heedless := Work.heedless_analyzing now
  refine heedless.bind (heedless.mapM fun u => heedless.correctUse offset u) fun uses => ?_
  exact heedless.bind (heedless.mapM fun u => heedless.use a user device u) fun outcomes => .pure _

/-- But for the log, the analysis of a report is that of its uses in order. -/
theorem app_amounts (plain : ∀ u ∈ r.uses, u.Plain) :
    Work.AmountsTo now (a.app user r)
      (a.inTurn user r.device (DeviceClock.offset a.tolerance now r.deviceTime) (inOrder r.uses)) := by
  rw [app_eq a user plain]
  refine .at_clock fun w clock => .after_reports ?_
  rw [clock]
  exact (heedless_inTurn a user now ..).reporting

/-- The outcomes of a report of one use are those of the use without the
offset, but for the log. -/
theorem single_amounts {u : AppUse} (plain : u.Plain) :
    Work.AmountsTo now (do return (← a.app user { r with uses := [u] }).outcomes)
      (correctUse (DeviceClock.offset a.tolerance now r.deviceTime) u >>= a.use user r.device) := by
  have only : ∀ v ∈ ({ r with uses := [u] } : AppReport).uses, v.Plain := fun v hv =>
    List.mem_singleton.mp hv ▸ plain
  have alone := (app_amounts a user now only).bind fun analysis => .pure analysis.outcomes
  simpa [inTurn, inOrder, insertUse] using alone

theorem oneByOne_amounts (plain : ∀ u ∈ r.uses, u.Plain) :
    Work.AmountsTo now (a.oneByOne user r) (do
      let outcomes ← (inOrder r.uses).mapM fun u =>
        correctUse (DeviceClock.offset a.tolerance now r.deviceTime) u >>= a.use user r.device
      return ⟨outcomes.flatten⟩) :=
  (Work.AmountsTo.mapM fun u hu => single_amounts a user now (plain u (mem_inOrder.mp hu))).bind fun _ => .pure _

/-- Uses that all stay in the calendar are analyzed in turn whether the
offset is taken out of all of them first or of each when it comes to it. -/
theorem inTurn_eq (device : Option Id) (h : us.Forall₂ (Corrects offset) us') :
    a.inTurn user device offset us = (do
      let outcomes ← us.mapM fun u => correctUse offset u >>= a.use user device
      return ⟨outcomes.flatten⟩) := by
  have each : us.mapM (fun u => correctUse offset u >>= a.use user device) = us'.mapM (a.use user device) :=
    Work.mapM_forall₂ (h.imp fun u u' hu => by rw [correctUse_of_corrects hu, pure_bind])
  unfold inTurn
  rw [mapM_correctUse h, pure_bind, each]

theorem inTurn_of_none (device : Option Id) (hu : u ∈ us)
    (out : DeviceClock.correct? u.starts u.ends offset = none) :
    a.inTurn user device offset us = throw .outOfRange := by
  unfold inTurn
  rw [mapM_correctUse_of_none hu out]
  rfl

/-- Not all uses are analyzed, one at a time, if one leaves the calendar. -/
theorem each_stops (device : Option Id) (hu : u ∈ us)
    (out : DeviceClock.correct? u.starts u.ends offset = none) (w : World) :
    ((us.mapM fun u => correctUse offset u >>= a.use user device).exec w).1.isOk = false := by
  have other : ∀ v ∈ us, ∀ {w bs w'},
      (correctUse offset v >>= a.use user device).exec w = (.ok bs, w') → v ≠ u := by
    rintro v _ w bs w' exec rfl
    rw [correctUse_of_none out] at exec
    cases exec
  rcases exec : (us.mapM fun u => correctUse offset u >>= a.use user device).exec w with ⟨stop | outcomes, w'⟩
  · rfl
  · obtain ⟨_, _, differs⟩ := ((Work.mapM_value other w).of_exec exec).1 u hu
    exact absurd rfl differs

/-! ## Moved reports -/

theorem correctUse_of_moved {d : Duration} (moved : u.Moved d u') (plain : u.Plain) :
    correctUse (offset + d) u' = correctUse offset u := by
  obtain ⟨ordinary, start⟩ := Instant.shift?_of_ordinary plain.starts moved.starts
  obtain ⟨ordinary', finish⟩ := Instant.shift?_of_ordinary plain.ends moved.ends
  have starts : u'.starts.shift? (-(offset + d)) = u.starts.shift? (-offset) :=
    Instant.shift?_congr ordinary plain.starts (by omega)
  have ends : u'.ends.shift? (-(offset + d)) = u.ends.shift? (-offset) :=
    Instant.shift?_congr ordinary' plain.ends (by omega)
  unfold correctUse DeviceClock.correct?
  rw [starts, ends, moved.application]

/-- Uses that were moved with the clock are the same without the offset. -/
theorem inTurn_of_moved {d : Duration} (device : Option Id) (plain : ∀ u ∈ us, u.Plain)
    (moved : us.Forall₂ (AppUse.Moved d) us') :
    a.inTurn user device (offset + d) (inOrder us') = a.inTurn user device offset (inOrder us) := by
  have both : us.Forall₂ (fun u u' => u.Plain ∧ u.Moved d u') us' :=
    (List.forall₂_and_left us us').mpr ⟨plain, moved⟩
  have ordered := forall₂_inOrder (fun hu hv =>
    Instant.shift?_le_iff hu.1.starts hv.1.starts hu.2.starts hv.2.starts) both
  have corrected : (inOrder us).mapM (correctUse offset) = (inOrder us').mapM (correctUse (offset + d)) :=
    Work.mapM_forall₂ (ordered.imp fun _ _ h => (correctUse_of_moved h.2 h.1).symm)
  unfold inTurn
  rw [corrected]

/-- Each use of a report stays in the calendar without the offset of the
device's clock. -/
def InCalendar (a : Analyzer) (now : Instant) (r : AppReport) : Prop :=
  ∀ u ∈ r.uses,
    (DeviceClock.correct? u.starts u.ends (DeviceClock.offset a.tolerance now r.deviceTime)).isSome

instance (a : Analyzer) (now : Instant) (r : AppReport) : Decidable (a.InCalendar now r) :=
  inferInstanceAs (Decidable (∀ u ∈ r.uses, _ = true))

end Analyzer

/-- Whatever the state and the outages: a report in which no use ends before
it starts, outside leap seconds, is analyzed as its uses are one at a time,
in order of their starts, those of one start in the order given. The one
exception are uses that leave the calendar without the offset of the
device's clock: then nothing is analyzed, and one at a time not all of it is.
So uses of different starts may be reported in any order, and all times of
the report may be moved, the device's clock included, as long as the offset
of that clock exceeds the tolerance before and after. -/
theorem report_analyzed_in_order (a : Analyzer) (user : User) (w : World) {r : AppReport}
    (plain : ∀ u ∈ r.uses, u.Plain) :
    (a.InCalendar w.now r → Work.EndsAs w (a.app user r) (a.oneByOne user r)) ∧
    (¬ a.InCalendar w.now r → Work.EndsAs w (a.app user r) (throw .outOfRange) ∧
      ((a.oneByOne user r).exec w).1.isOk = false) ∧
    (∀ uses, uses.Perm r.uses → r.uses.Pairwise (fun u v => u.starts ≠ v.starts) →
      (a.app user { r with uses := uses }).exec w = (a.app user r).exec w) ∧
    ∀ d r', r.Moved d r' → r.deviceTime.Ordinary → w.now.Ordinary →
      a.tolerance < ((r.deviceTime.since w.now).natAbs : Int) →
      a.tolerance < ((r'.deviceTime.since w.now).natAbs : Int) →
      Work.EndsAs w (a.app user r') (a.app user r) := by
  have inTurn := Analyzer.app_amounts a user w.now plain
  have oneByOne := Analyzer.oneByOne_amounts a user w.now plain
  refine ⟨fun stays => ?inCalendar, fun leaves => ?leaves, fun uses perm differ => ?permuted,
    fun d r' moved device clock before after => ?moved⟩
  case inCalendar =>
    obtain ⟨us', corrected⟩ : ∃ us', (Analyzer.inOrder r.uses).Forall₂
        (Analyzer.Corrects (DeviceClock.offset a.tolerance w.now r.deviceTime)) us' := by
      refine (Analyzer.forall₂_corrects _ _).resolve_right fun ⟨u, hu, out⟩ => ?_
      exact absurd (stays u (Analyzer.mem_inOrder.mp hu)) (by rw [out]; exact Bool.false_ne_true)
    rw [Analyzer.inTurn_eq a user r.device corrected] at inTurn
    exact (inTurn.trans oneByOne.symm).endsAs
  case leaves =>
    obtain ⟨u, hu, out⟩ : ∃ u ∈ r.uses,
        DeviceClock.correct? u.starts u.ends (DeviceClock.offset a.tolerance w.now r.deviceTime) = none := by
      simpa [Analyzer.InCalendar] using leaves
    have hu := Analyzer.mem_inOrder.mpr hu
    rw [Analyzer.inTurn_of_none a user r.device hu out] at inTurn
    refine ⟨inTurn.endsAs, ?_⟩
    rw [(oneByOne.ends (.refl w)).1]
    exact Work.isOk_bind_of_stops (Analyzer.each_stops a user r.device hu out w) _
  case permuted =>
    have plain' : ∀ u ∈ ({ r with uses := uses } : AppReport).uses, u.Plain := fun u hu =>
      plain u (perm.mem_iff.mp hu)
    rw [Analyzer.app_eq a user plain', Analyzer.app_eq a user plain, Analyzer.inOrder_of_perm perm differ]
  case moved =>
    have moves := Analyzer.app_amounts a user w.now (moved.plain plain)
    rw [moved.offset device clock before after, moved.device,
      Analyzer.inTurn_of_moved a user r.device plain moved.uses] at moves
    exact (moves.trans inTurn.symm).endsAs

namespace Sample

/-- Mail was used for two minutes, by a device whose clock runs ahead. -/
def mailUse (minutes : Int) : AppUse := ⟨"mail", (event minutes).starts, (event minutes).ends⟩

/-- A device whose clock runs five minutes ahead, and some more, reports the
later of two uses first. -/
def lateFirst (more : Int) : AppReport :=
  ⟨(event (25 + more)).starts, none, [mailUse (15 + more), mailUse (10 + more)]⟩

/-- Both uses are analyzed; so they would be one at a time, in the other
order, or by a clock that runs six minutes ahead. -/
theorem late_first_analyzed :
    (∀ u ∈ (lateFirst 0).uses, u.Plain) ∧
    ((analyzer.app owner (lateFirst 0)).exec counting).1.toOption.map (·.outcomes.length) = some 2 ∧
    Work.EndsAs counting (analyzer.app owner (lateFirst 0)) (analyzer.oneByOne owner (lateFirst 0)) ∧
    (analyzer.app owner { lateFirst 0 with uses := [mailUse 10, mailUse 15] }).exec counting =
      (analyzer.app owner (lateFirst 0)).exec counting ∧
    Work.EndsAs counting (analyzer.app owner (lateFirst 1)) (analyzer.app owner (lateFirst 0)) := by
  have plain : ∀ u ∈ (lateFirst 0).uses, u.Plain := by decide +kernel
  have moved : (lateFirst 0).Moved (Duration.ofMinutes 1) (lateFirst 1) :=
    ⟨by decide +kernel, rfl, .cons ⟨rfl, by decide +kernel, by decide +kernel⟩
      (.cons ⟨rfl, by decide +kernel, by decide +kernel⟩ .nil)⟩
  obtain ⟨inTurn, -, permuted, shifted⟩ := report_analyzed_in_order analyzer owner counting plain
  refine ⟨plain, by decide +kernel, inTurn (by decide +kernel), ?_, ?_⟩
  · exact permuted _ (.swap ..) (by decide +kernel)
  · exact shifted _ _ moved (by decide +kernel) (by decide +kernel) (by decide +kernel) (by decide +kernel)

end Sample
end UsageDiary
