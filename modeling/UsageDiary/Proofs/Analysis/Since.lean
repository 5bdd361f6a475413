import UsageDiary.Proofs.Analysis.Requests

/-!
# From when on a goal counts

An event is merged under the goals that were active when it ended, and so is
each of its parts. A part that was cut at the end of a local day may end
before: it is the only one that does (`Goal.admits_of_splits`). So what an
analysis would do with any other part of a goal makes no difference
(`Analyzer.only_admitted`). Such a part is stored and notified although the
goal did not count yet (`Sample.counted_too_early`).
-/

namespace UsageDiary

/-- A part of an event that may be merged under a goal: the goal was active
when the part ended, or the part was cut at the end of a local day from an
event that ran on until the goal was active. -/
inductive Goal.Admits (zone : Zone) (g : Goal) (part : UsageEvent) : Prop where
  | active (active : g.activeSince ≤ part.ends)
  | cut (e : UsageEvent) (date : Date) (shows : zone.localDate? e.starts = some date)
      (ends : zone.startOfNextDay date = .ok part.ends) (head : part = { e with ends := part.ends })
      (before : part.ends < g.activeSince) (until_active : g.activeSince ≤ e.ends)

/-- A goal that was active when an event ended admits all of its parts. -/
theorem Goal.admits_of_splits {zone : Zone} {g : Goal} {e : UsageEvent} {parts : List UsageEvent}
    (splits : e.Splits zone parts) (active : g.activeSince ≤ e.ends) {part : UsageEvent}
    (h : part ∈ parts) : g.Admits zone part := by
  have head {date : Date} {next : Instant} (shows : zone.localDate? e.starts = some date)
      (ends : zone.startOfNextDay date = .ok next) : g.Admits zone { e with ends := next } := by
    rcases le_or_gt g.activeSince next with le | lt
    · exact .active le
    · exact .cut e date shows ends rfl lt active
  cases splits with
  | whole => exact .active (List.mem_singleton.mp h ▸ active)
  | cut shows ends => exact List.mem_singleton.mp h ▸ head shows ends
  | both shows ends =>
    rcases List.mem_cons.mp h with rfl | h
    · exact head shows ends
    · exact .active (List.mem_singleton.mp h ▸ active)

/-! ## Work that does the same -/

namespace Work

variable {α β : Type}

theorem ext {x y : Work α} (h : ∀ w, x.exec w = y.exec w) : x = y := funext h

/-- Work that goes on alike from every value that a step may end in. -/
theorem bind_congr {x : Work α} {f g : α → Work β} (value : α → Prop)
    (hx : ∀ w, WP x w (fun a _ => value a) fun _ _ => True) (h : ∀ a, value a → f a = g a) :
    x >>= f = x >>= g := by
  refine ext fun w => ?_
  have ended := hx w
  rw [exec_bind, exec_bind]
  unfold WP at ended
  rcases hw : x.exec w with ⟨stop | a, w'⟩
  · rfl
  · rw [hw] at ended
    simp only [h a ended]

/-- Work on items that is work on the items beside them. -/
theorem mapM_forall₂ {γ : Type} {f : α → Work γ} {g : β → Work γ} {l : List α} {l' : List β}
    (h : List.Forall₂ (fun a b => f a = g b) l l') : l.mapM f = l'.mapM g := by
  induction h with
  | nil => rfl
  | cons first _ ih => rw [List.mapM_cons, List.mapM_cons, first, ih]

theorem mapM_congr {f g : α → Work β} {l : List α} (h : ∀ a ∈ l, f a = g a) : l.mapM f = l.mapM g :=
  mapM_forall₂ (List.forall₂_same.mpr h)

/-- The goals that are matched are the user's, and were active then. -/
theorem matchingGoals_active (user : User) (labels : List String) (t : Instant) (w : World) :
    WP (matchingGoals user labels t) w
      (fun goals _ => ∀ g ∈ goals, g ∈ user.goals ∧ g.activeSince ≤ t) fun _ _ => True := by
  unfold matchingGoals
  refine (any _ w).bind (fun found w₁ _ => ?_) fun _ _ => id
  refine WP.ite (fun _ => WP.pure (by simp)) fun _ => ?_
  refine (goalsOf_value user w₁).bind (fun gs w₂ same => ?_) fun _ _ => id
  refine (any _ w₂).bind (fun _ w₃ _ => ?_) fun _ _ => id
  refine WP.pure fun g hg => ?_
  obtain ⟨mem, -, active⟩ := matching_mem hg
  exact ⟨same ▸ mem, active⟩

end Work

/-! ## Analyses by what they do with a part and a goal -/

namespace Analyzer

section Congr

variable {a : Analyzer} {user : User} {one one' : UsageEvent → Goal → Work GoalOutcome}
  (same : ∀ part, ∀ g ∈ user.goals, g.Admits user.zone part → one part g = one' part g)

include same

theorem processBy_congr {goals : List Goal} {e : UsageEvent}
    (active : ∀ g ∈ goals, g ∈ user.goals ∧ g.activeSince ≤ e.ends) :
    processBy one user goals e = processBy one' user goals e := by
  unfold processBy
  refine Work.bind_congr _ (Work.split_ok user.zone e) fun parts splits => ?_
  have pairs : (parts.mapM fun part => goals.mapM fun goal => one part goal) =
      parts.mapM fun part => goals.mapM fun goal => one' part goal :=
    Work.mapM_congr fun part hp => Work.mapM_congr fun g hg =>
      same part g (active g hg).1 (Goal.admits_of_splits splits (active g hg).2 hp)
  rw [pairs]

theorem networkBy_congr (visit : NetworkVisit) :
    a.networkBy one user visit = a.networkBy one' user visit := by
  unfold networkBy
  split
  · rfl
  · refine Work.bind_congr (fun _ => True) (Work.any _) fun w _ => ?_
    refine Work.bind_congr _ (Work.matchingGoals_active user _ _) fun goals active => ?_
    have alike := processBy_congr same (e := ⟨visit.time.getD w.now, visit.time.getD w.now, visit.device,
      none, some (truncateUrl visit.url a.settings.maxUrlLength)⟩) active
    simp only [alike]

theorem useBy_congr (device : Option Id) (u : AppUse) :
    useBy one user device u = useBy one' user device u := by
  unfold useBy
  refine Work.bind_congr _ (Work.matchingGoals_active user _ _) fun goals active => ?_
  have alike := processBy_congr same
    (e := ⟨u.starts, u.ends, device, some u.application, none⟩) active
  rw [alike]

theorem appBy_congr (r : AppReport) : a.appBy one user r = a.appBy one' user r := by
  unfold appBy
  rw [show useBy one user r.device = useBy one' user r.device from funext (useBy_congr same r.device)]

end Congr

/-- An analysis merges a part under a goal of the user only if the goal
admits the part: one that would do anything else with all other parts and
goals does the same. -/
theorem only_admitted (a : Analyzer) (user : User) (one : UsageEvent → Goal → Work GoalOutcome)
    (same : ∀ part, ∀ g ∈ user.goals, g.Admits user.zone part → one part g = a.processOne user part g) :
    (∀ visit, a.networkBy one user visit = a.network user visit) ∧
      ∀ r, a.appBy one user r = a.app user r :=
  ⟨networkBy_congr same, appBy_congr same⟩

end Analyzer

/-! ## A part that is counted too early -/

namespace Sample

/-- A goal that allows no mail from half past midnight on. -/
def lateLimit : Goal := { limit with activeSince := (event 30).starts }

/-- The user with that goal. -/
def lateOwner : User := { owner with goals := [lateLimit] }

/-- Mail was used from half an hour before midnight to an hour after it. -/
def nightReport : AppReport :=
  ⟨(event 120).starts, none, [⟨"mail", (event (-30)).starts, (event 60).starts⟩]⟩

/-- The service after the report, in which mail counts for the goal. -/
def afterNight : World :=
  (World.fresh .epoch 0).served analyzer
    [.surroundings (event 120).starts [("mail", [⟨5⟩])] [], .app lateOwner nightReport]

/-- What an analysis does that stops at every part that ended before its goal
was active, unless at a whole second as days do. -/
def refusing (part : UsageEvent) (g : Goal) : Work GoalOutcome :=
  if part.ends < g.activeSince ∧ part.ends.nano ≠ 0 then Work.fail (.invalidInput "too early")
  else analyzer.processOne lateOwner part g

theorem none_refused : analyzer.networkBy refusing lateOwner (mailRead "mail") =
      analyzer.network lateOwner (mailRead "mail") ∧
    analyzer.appBy refusing lateOwner nightReport = analyzer.app lateOwner nightReport := by
  obtain ⟨network, app⟩ := analyzer.only_admitted lateOwner refusing fun part g _ admits => by
    refine if_neg fun ⟨early, fraction⟩ => ?_
    cases admits with
    | active active => exact absurd early (not_lt_of_ge active)
    | cut e date shows ends head before until_active =>
      obtain ⟨next, -, starts⟩ := Zone.startOfNextDay_eq_ok ends
      obtain ⟨second, at_second⟩ := Zone.exists_of_startOfDay starts
      exact fraction (Instant.ofParts?_eq_some at_second).2
  exact ⟨network _, app _⟩

/-- The activities that are stored on the date before midnight. -/
def ofEvening : List Activity :=
  match (afterNight.store.findDay ⟨1⟩ lateLimit.id ⟨20094, by decide, by decide⟩).result with
  | .ok (some d) => d.activities
  | _ => []

/-- The half hour before midnight is stored and notified, although the goal
did not count before half past midnight. -/
theorem counted_too_early :
    (∃ x ∈ ofEvening, x.ends < lateLimit.activeSince) ∧
    ∃ n, .toUser ⟨2⟩ n ∈ afterNight.sent ∧ n.goal = lateLimit.id ∧
      n.activity.ends < lateLimit.activeSince := by
  have notified : (afterNight.sent.any fun d => match d with
      | .toUser ⟨2⟩ n => n.goal = lateLimit.id ∧ n.activity.ends < lateLimit.activeSince
      | _ => false) = true := by decide +kernel
  refine ⟨by decide +kernel, ?_⟩
  obtain ⟨d, sent, early⟩ := List.any_eq_true.mp notified
  split at early
  · next n => exact ⟨n, sent, by simpa using early⟩
  · cases early

end Sample
end UsageDiary
