import UsageDiary.Proofs.Analysis.Parts
import UsageDiary.Proofs.Analysis.Uses

/-!
# The course of an analysis

An analysis splits events, matches them to goals, merges each part under
each goal and notifies conflicts. What holds along its course (`Course`)
follows from what merging one part under one goal does (`Course.Serves`):
of a visit of the network (`Course.Serves.network`), and of a device's
report, each of whose uses is then taken care of (`Course.Serves.app`).
-/

namespace UsageDiary

/-- What holds along the course of an analysis: of each world on it, between
the worlds before and after some work, and between those where work stops.
Work that leaves the store and the cache alone keeps to the course. -/
structure Course where
  inv : World → Prop
  step : World → World → Prop
  stops : World → Stop → World → Prop
  trans : ∀ {w₁ w₂ w₃ : World}, step w₁ w₂ → step w₂ w₃ → step w₁ w₃
  stops_trans : ∀ {w₁ w₂ w₃ : World} {stop : Stop}, step w₁ w₂ → stops w₂ stop w₃ → stops w₁ stop w₃
  framed : ∀ {w w' : World}, step w w' → w.Framed w'
  still : ∀ {w w' : World}, inv w → w.Still w' → inv w' ∧ step w w'
  halts : ∀ {w w' : World} (stop : Stop), inv w → w.Still w' → stops w stop w'

namespace Course

variable {c : Course} {α β : Type} {x : Work α} {f : α → Work β} {w w' : World}
  {mid : α → World → Prop} {post : β → World → Prop}

/-- The course leads from one world to another. -/
structure Leads (c : Course) (w w' : World) : Prop where
  inv : c.inv w'
  step : c.step w w'

/-- The course ends where work stops. -/
structure Halts (c : Course) (w : World) (stop : Stop) (w' : World) : Prop where
  inv : c.inv w'
  stops : c.stops w stop w'

/-- Work follows the course from a world, and ends in a value and a world
of which something holds. -/
def Follows (c : Course) (x : Work α) (w : World) (post : α → World → Prop) : Prop :=
  Work.WP x w (fun a w' => c.Leads w w' ∧ post a w') (c.Halts w)

theorem leads_of_still (inv : c.inv w) (still : w.Still w') : c.Leads w w' :=
  ⟨(c.still inv still).1, (c.still inv still).2⟩

namespace Follows

theorem pure {a : α} {post : α → World → Prop} (inv : c.inv w) (h : post a w) :
    c.Follows (Pure.pure a) w post :=
  Work.WP.pure ⟨leads_of_still inv (.refl w), h⟩

theorem mono {mid' : α → World → Prop} (h : c.Follows x w mid)
    (hmid : ∀ a w', c.Leads w w' → mid a w' → mid' a w') : c.Follows x w mid' :=
  Work.WP.mono h (fun a w' ⟨leads, h⟩ => ⟨leads, hmid a w' leads h⟩) fun _ _ => id

theorem bind (hx : c.Follows x w mid)
    (hf : ∀ a w', c.Leads w w' → mid a w' → c.Follows (f a) w' post) : c.Follows (x >>= f) w post := by
  refine Work.WP.bind hx (fun a w₁ ⟨leads, h⟩ => ?_) fun _ _ => id
  refine Work.WP.mono (hf a w₁ leads h) (fun b w₂ ⟨leads', h'⟩ => ⟨⟨leads'.inv, ?_⟩, h'⟩)
    fun stop w₂ halts => ⟨halts.inv, ?_⟩
  · exact c.trans leads.step leads'.step
  · exact c.stops_trans leads.step halts.stops

/-- Work that leaves the store and the cache alone follows the course. -/
theorem of_still {value : α → Prop} (inv : c.inv w) (hx : Work.IsStill x)
    (h : Work.WP x w (fun a _ => value a) fun _ _ => True) : c.Follows x w fun a _ => value a :=
  (h.within hx).mono (fun _ _ ⟨h, still⟩ => ⟨leads_of_still inv still, h⟩)
    fun stop _ ⟨_, still⟩ => ⟨(c.still inv still).1, c.halts stop inv still⟩

theorem still (inv : c.inv w) (hx : Work.IsStill x) : c.Follows x w fun _ _ => True :=
  of_still inv hx (Work.any _ _)

theorem get (inv : c.inv w) : c.Follows MonadState.get w fun a _ => w = a :=
  of_still inv .get (show Work.WP MonadState.get w (fun a _ => w = a) fun _ _ => True from rfl)

/-- What is done for one item stays done while the others are taken care of. -/
theorem mapM (done : α → World → Prop) {l : List α}
    (stable : ∀ {a w w'}, c.step w w' → done a w → done a w') (inv : c.inv w)
    (each : ∀ a ∈ l, ∀ w', c.inv w' → w'.directory = w.directory →
      c.Follows (f a) w' fun _ => done a) :
    c.Follows (l.mapM f) w fun _ w' => ∀ a ∈ l, done a w' := by
  induction l generalizing w with
  | nil => exact .pure inv (by simp)
  | cons a rest ih =>
    rw [List.mapM_cons]
    refine (each a List.mem_cons_self w inv rfl).bind fun b w₁ leads did => ?_
    have directory := (c.framed leads.step).directory
    refine (ih leads.inv fun a' ha' w' inv' same =>
      each a' (List.mem_cons_of_mem a ha') w' inv' (same.trans directory)).bind
        fun bs w₂ leads' others => .pure leads'.inv fun a' ha' => ?_
    rcases List.mem_cons.mp ha' with rfl | ha'
    · exact stable leads'.step did
    · exact others a' ha'

end Follows

/-! ## Analyses -/

/-- Merging one part of an event under one goal of a user, and notifying
the conflict, follows the course; what is done by it stays done. -/
structure Serves (c : Course) (a : Analyzer) (user : User) (takes : UsageEvent → Prop)
    (done : UsageEvent → Id → World → Prop) : Prop where
  one : ∀ {part goal w}, takes part → goal ∈ user.goals → c.inv w →
    c.Follows (a.processOne user part goal) w fun _ => done part goal.id
  stable : ∀ {part goal w w'}, c.step w w' → done part goal w → done part goal w'

/-- An event is done under a goal when each of its parts is. -/
def Done (done : UsageEvent → Id → World → Prop) (zone : Zone) (e : UsageEvent) (goal : Id)
    (w : World) : Prop :=
  ∃ parts, e.Splits zone parts ∧ ∀ part ∈ parts, done part goal w

namespace Serves

variable {a : Analyzer} {user : User} {takes : UsageEvent → Prop} {done : UsageEvent → Id → World → Prop}

theorem stable_done (h : c.Serves a user takes done) {e : UsageEvent} {goal : Id} {zone : Zone}
    (step : c.step w w') (did : Done done zone e goal w) : Done done zone e goal w' := by
  obtain ⟨parts, splits, all⟩ := did
  exact ⟨parts, splits, fun part hp => h.stable step (all part hp)⟩

theorem process (h : c.Serves a user takes done) {goals : List Goal}
    (own : ∀ g ∈ goals, g ∈ user.goals) {e : UsageEvent}
    (parts : ∀ ps, e.Splits user.zone ps → ∀ p ∈ ps, takes p) (inv : c.inv w) :
    c.Follows (a.process user goals e) w fun _ w' => ∀ g ∈ goals, Done done user.zone e g.id w' := by
  unfold Analyzer.process Analyzer.processBy
  refine (Follows.of_still inv (Work.still_split ..) (Work.split_ok ..)).bind
    fun ps w₁ leads splits => ?_
  refine (Follows.mapM (fun part w' => ∀ g ∈ goals, done part g.id w') ?_ leads.inv ?_).bind
    fun _ w₂ leads' all => .pure leads'.inv fun g hg => ⟨ps, splits, fun p hp => all p hp g hg⟩
  · exact fun step did g hg => h.stable step (did g hg)
  · intro part hp w₂ inv₂ _
    exact .mapM (fun g => done part g.id) (fun step did => h.stable step did) inv₂
      fun g hg w₃ inv₃ _ => h.one (parts ps splits part hp) (own g hg) inv₃

/-- A visit of the network follows the course. -/
theorem network (h : c.Serves a user takes done) {visit : NetworkVisit}
    (parts : ∀ ps (url : String), UsageEvent.Splits user.zone ⟨visit.time.getD w.now, visit.time.getD w.now,
      visit.device, none, some url⟩ ps → ∀ p ∈ ps, takes p) (inv : c.inv w) :
    c.Follows (a.network user visit) w fun _ _ => True := by
  unfold Analyzer.network Analyzer.networkBy
  refine Work.WP.ite (fun _ => Follows.pure inv trivial) fun _ => ?_
  refine (Follows.get inv).bind fun w₀ w₁ leads same => ?_
  subst same
  refine (Follows.of_still leads.inv (Work.still_matchingGoals ..) (Work.matchingGoals_ok ..)).bind
    fun goals w₂ leads₂ ⟨own, _⟩ => ?_
  refine Work.WP.ite (fun _ => Follows.pure leads₂.inv trivial) fun _ => ?_
  refine (h.process own (parts · _) leads₂.inv).bind fun outcomes w₃ leads₃ _ => ?_
  refine (Follows.still leads₃.inv (Work.still_report _)).bind fun _ w₄ leads₄ _ => ?_
  exact .pure leads₄.inv trivial

/-- The use of an application follows the course, and is then done under
every goal that it counts for. -/
theorem use (h : c.Serves a user takes done) {device : Option Id} {u : AppUse}
    (parts : ∀ ps, UsageEvent.Splits user.zone ⟨u.starts, u.ends, device, some u.application, none⟩ ps →
      ∀ p ∈ ps, takes p) (inv : c.inv w) :
    c.Follows (a.use user device u) w fun _ w' => ∀ g ∈ user.goals,
      g.Counts w.directory [u.application] u.ends →
        Done done user.zone ⟨u.starts, u.ends, device, some u.application, none⟩ g.id w' := by
  unfold Analyzer.use Analyzer.useBy
  refine (Follows.of_still inv (Work.still_matchingGoals ..) (Work.matchingGoals_ok ..)).bind
    fun goals w₁ leads ⟨own, counted⟩ => ?_
  refine Work.WP.ite (fun empty => Follows.pure leads.inv fun g hg counts => ?_) fun _ => ?_
  · have matched := counted g hg counts
    rw [List.isEmpty_iff.mp empty] at matched
    cases matched
  · exact (h.process own parts leads.inv).mono fun _ w₂ _ all g hg counts => all g (counted g hg counts)

end Serves
end Course

/-! ## Uses without the offset -/

namespace Analyzer

/-- A use without the offset of a device's clock. -/
def Corrects (offset : Duration) (u u' : AppUse) : Prop :=
  ∃ starts ends, DeviceClock.correct? u.starts u.ends offset = some (starts, ends) ∧
    u' = { u with starts := starts, ends := ends }

/-- The bounds of the use are moved back by the offset. -/
theorem Corrects.moves {offset : Duration} {u u' : AppUse} (h : Corrects offset u u') :
    u.starts.shift? (-offset) = some u'.starts ∧ u.ends.shift? (-offset) = some u'.ends := by
  obtain ⟨_, _, corrected, rfl⟩ := h
  simp only [DeviceClock.correct?, Option.bind_eq_bind, Option.bind_eq_some_iff, Option.pure_def,
    Option.some.injEq, Prod.mk.injEq] at corrected
  obtain ⟨_, starts, _, ends, rfl, rfl⟩ := corrected
  exact ⟨starts, ends⟩

theorem corrects_of_correctUse {offset : Duration} {u u' : AppUse} {w w' : World}
    (h : (correctUse offset u).exec w = (.ok u', w')) : Corrects offset u u' := by
  unfold correctUse at h
  generalize corrected : DeviceClock.correct? u.starts u.ends offset = bounds at h
  cases bounds with
  | none => cases h
  | some bounds =>
    cases h
    exact ⟨bounds.1, bounds.2, corrected, rfl⟩

end Analyzer

namespace Course.Serves

variable {c : Course} {a : Analyzer} {user : User} {takes : UsageEvent → Prop}
  {done : UsageEvent → Id → World → Prop} {w : World}

/-- A device's report follows the course. When it was analyzed, each use,
without the offset of the device's clock, is done under every goal that it
counts for. -/
theorem app (h : c.Serves a user takes done) {r : AppReport}
    (parts : ∀ u ∈ r.uses, u.starts ≤ u.ends → ∀ u',
      Analyzer.Corrects (DeviceClock.offset a.tolerance w.now r.deviceTime) u u' →
      ∀ ps, UsageEvent.Splits user.zone ⟨u'.starts, u'.ends, r.device, some u'.application, none⟩ ps →
        ∀ p ∈ ps, takes p) (inv : c.inv w) :
    c.Follows (a.app user r) w fun _ w' => ∀ u ∈ r.uses, u.starts ≤ u.ends ∧ ∃ u',
      Analyzer.Corrects (DeviceClock.offset a.tolerance w.now r.deviceTime) u u' ∧
      ∀ g ∈ user.goals, g.Counts w.directory [u.application] u'.ends →
        Done done user.zone ⟨u'.starts, u'.ends, r.device, some u'.application, none⟩ g.id w' := by
  unfold Analyzer.app Analyzer.appBy
  cases refused : r.uses.find? fun u => u.ends < u.starts with
  | some u => exact ⟨inv, c.halts _ inv (.refl w)⟩
  | none =>
    have ordered (u : AppUse) (hu : u ∈ r.uses) : u.starts ≤ u.ends :=
      le_of_not_gt (by simpa using List.find?_eq_none.mp refused u hu)
    refine (Follows.get inv).bind fun w₀ w₁ leads₁ same => ?_
    subst same
    refine (Follows.still leads₁.inv (Work.still_inquiring.forM Work.still_report)).bind fun _ w₂ leads₂ _ => ?_
    generalize DeviceClock.offset a.tolerance w.now r.deviceTime = offset at parts ⊢
    have corrects := Work.mapM_value (fun (u : AppUse) (_ : u ∈ r.uses) _ u' _
      (h : (Analyzer.correctUse offset u).exec _ = (.ok u', _)) =>
        Analyzer.corrects_of_correctUse h) w₂
    refine (Follows.of_still leads₂.inv (Work.still_inquiring.mapM (Work.still_correctUse offset)) corrects).bind
      fun uses w₃ leads₃ ⟨corrected, origin⟩ => ?_
    have directory : w₃.directory = w.directory := by
      rw [(c.framed leads₃.step).directory, (c.framed leads₂.step).directory,
        (c.framed leads₁.step).directory]
    refine (Follows.mapM (fun u' w' => ∀ g ∈ user.goals,
      g.Counts w.directory [u'.application] u'.ends →
        Done done user.zone ⟨u'.starts, u'.ends, r.device, some u'.application, none⟩ g.id w')
      ?_ leads₃.inv ?_).bind fun outcomes w₄ leads₄ all => ?_
    · exact fun step did g hg counts => h.stable_done step (did g hg counts)
    · intro u' hu' w₄ inv₄ same
      obtain ⟨u, hu, corrects⟩ := origin u' (Analyzer.mem_inOrder.mp hu')
      rw [← directory, ← same]
      exact h.use (parts u hu (ordered u hu) u' corrects) inv₄
    · refine (Follows.still leads₄.inv (Work.still_report _)).bind fun _ w₅ leads₅ _ => ?_
      refine .pure leads₅.inv fun u hu => ?_
      obtain ⟨u', hu', corrects⟩ := corrected u hu
      refine ⟨ordered u hu, u', corrects, fun g hg counts => ?_⟩
      have application : u.application = u'.application := by
        obtain ⟨_, _, -, rfl⟩ := corrects
        rfl
      rw [application] at counts
      exact h.stable_done leads₅.step (all u' (Analyzer.mem_inOrder.mpr hu') g hg counts)

end Course.Serves
end UsageDiary
