import UsageDiary.Proofs.Analysis.Requests
import UsageDiary.Proofs.Day.Tidy
import UsageDiary.Proofs.Merge.Atomic

/-!
# Conflicts that are notified

The user is told of every activity that is stored under a no-go goal, as
long as messages are delivered, or else its merge was cut short: the day was
saved, attaching it to its week stopped, and the analysis stopped there
(`conflict_notified_or_cut_short`). A repeated analysis attaches the day,
but finds its event absorbed, so nobody is told (`Sample.conflict_lost`).

One part of an event, merged under one goal, accounts for each activity that
is stored after it (`notifying_serves`): it was stored before, perhaps
shorter, or it was created, and a created one is notified.
-/

namespace UsageDiary

namespace World

/-- An activity is stored under a user and goal. -/
def Stores (w : World) (user goal : Id) (x : Activity) : Prop :=
  ∃ date d, (w.store.findDay user goal date).result = .ok (some d) ∧ x ∈ d.activities

/-- An activity is stored under a user and goal, or was before it grew. -/
def Knows (w : World) (user goal : Id) (x : Activity) : Prop :=
  ∃ y, w.Stores user goal y ∧ y.Grows x

/-- The user was told of an activity under a goal, perhaps before it grew. -/
def Notified (w : World) (user goal : Id) (x : Activity) : Prop :=
  ∃ destination n, .toUser destination n ∈ w.sent ∧ n.user = user ∧ n.goal = goal ∧ n.activity.Grows x

/-- A merge saved a day with a new activity and then stopped, since
attaching the day to its week was refused. -/
def CutShort (s : Settings) (user goal : Id) (stop : Stop) (w' : World) (x : Activity) : Prop :=
  ∃ w u e d, u.id = user ∧ (Work.merge s u goal e).exec w = (.error stop, w') ∧
    w.SavedOnly user goal e.starts stop w' d ∧ x ∈ d.activities ∧ ¬ w.Knows user goal x

variable {w w' : World} {user goal : Id} {x y : Activity}

theorem Stores.of_store (h : w'.Stores user goal x) (same : w'.store = w.store) : w.Stores user goal x := by
  unfold Stores at h
  rwa [same] at h

theorem Stores.knows (h : w.Stores user goal x) : w.Knows user goal x := ⟨x, h, .refl x⟩

theorem Knows.grows (h : w.Knows user goal y) (grows : y.Grows x) : w.Knows user goal x := by
  obtain ⟨z, stores, grows'⟩ := h
  exact ⟨z, stores, grows'.trans grows⟩

/-- A message stays sent. -/
theorem Notified.grows (h : w.Notified user goal y) (sent : w.sent <+: w'.sent) (grows : y.Grows x) :
    w'.Notified user goal x := by
  obtain ⟨destination, n, hn, huser, hgoal, grows'⟩ := h
  exact ⟨destination, n, sent.subset hn, huser, hgoal, grows'.trans grows⟩

end World

/-! ## Messages -/

namespace Work

theorem dispatch_ok {call : CallKind} (d : Dispatch) {w : World} (delivers : ∀ o ∈ w.outages, o.call ≠ call) :
    WP (dispatch call d) w (fun _ w' => d ∈ w'.sent) fun _ _ => False := by
  have meets : WP (meetOutage call) w (fun met _ => met = none) fun _ _ => False := by
    unfold meetOutage
    refine WP.bind (show WP _ w (fun met _ => met = none) fun _ _ => False from
      Outage.meet_eq_none delivers) (fun met w₁ none => ?_) fun _ _ => id
    subst none
    exact rfl
  refine meets.bind (fun met w₁ none => ?_) fun _ _ => id
  subst none
  exact List.mem_append_right _ List.mem_cons_self

/-- The user is told of a conflict, even if the buddies are not. -/
theorem notify_sends (user : User) (goal : Goal) (activity : Activity) (url : Option String) {w : World}
    (delivers : ∀ o ∈ w.outages, o.call ≠ .send) :
    WP (notify user goal activity url) w (fun _ w' => w'.Notified user.id goal.id activity)
      fun _ w' => w'.Notified user.id goal.id activity := by
  rw [notify_eq]
  refine WP.bind (show WP freshId w (fun _ w₁ => w₁.outages = w.outages) fun _ _ => False from rfl)
    (fun id w₁ same => ?_) fun _ _ => False.elim
  refine WP.bind (show WP get w₁ (fun _ w₂ => w₂ = w₁) fun _ _ => False from rfl)
    (fun now w₂ same' => ?_) fun _ _ => False.elim
  subst same'
  rw [← same] at delivers
  refine (dispatch_ok _ delivers).bind (fun _ w₃ sent => ?_) fun _ _ => False.elim
  have rest := (still_notifying.tellBuddies user goal.id
    ⟨id, user.id, goal.id, goal.category, activity, url, now.now⟩).framed
  refine ((any _ w₃).within rest).mono (fun _ w₄ ⟨_, framed⟩ => ?_) fun _ w₄ ⟨_, framed⟩ => ?_
  all_goals exact ⟨_, _, framed.sent.subset sent, rfl, rfl, .refl activity⟩

end Work

/-! ## Merges -/

section Merge

variable {s : Settings} {u : User} {goal : Id} {e : UsageEvent} {w w' : World} {m : MemoryStore}
  {result : Except Stop Merged} {x : Activity}

/-- An activity that a merge stores was stored before, perhaps shorter, or
was created by it. -/
theorem Ending.stores_of_ok {r : Merged}
    (h : Ending s u goal e w ⟨m, w.cache.slot u.id goal, w.nextId⟩ (.ok r) w') (hm : w.store = .memory m)
    (coherent : (w.cache.slot u.id goal).Coherent m u.id goal) (numbered : m.Numbered w.nextId)
    (stores : w'.Stores u.id goal x) :
    w.Knows u.id goal x ∨ ∃ opened, r.outcome = .created x opened := by
  cases h with
  | @merged p d opened next _ v' v'' _ recorded finished h =>
    have loaded := Scope.load_coherent (v := ⟨m, w.cache.slot u.id goal, w.nextId⟩) coherent
    have knows {date : Date} {d : Day} {y : Activity} (hd : m.findDay u.id goal date = some d)
        (hy : y ∈ d.activities) : w.Stores u.id goal y := by
      refine ⟨date, d, ?_, hy⟩
      rw [hm]
      exact congrArg Except.ok hd
    obtain ⟨date, d', hd', hx⟩ := stores
    rw [h.store] at hd'
    have hd' := (MemoryStore.findDay_congr finished.days u.id goal date).symm.trans (Except.ok.inj hd')
    by_cases same : date = d.date
    · rw [same, recorded.findDay_self loaded] at hd'
      cases hd'
      have old {y : Activity} (hy : y ∈ d.activities) : w.Stores u.id goal y := by
        cases opened with
        | false => exact knows (recorded.holds_of_kept loaded) hy
        | true =>
          rw [recorded.taken.nil_of_opened] at hy
          cases hy
      rcases recorded.applied.mem_cases (recorded.numbered_taken loaded numbered).labelled hx with
        hx | ⟨-, -, -, created⟩ | ⟨last, hlast, decided, -, rfl, -⟩
      · exact .inl (old hx).knows
      · exact .inr ⟨_, created⟩
      · obtain ⟨_, hlast', -, longer⟩ := Settings.lt_ends_of_extend decided
        cases hlast.symm.trans hlast'
        exact .inl ⟨last, old (Day.mem_of_last? hlast), rfl, rfl, rfl, rfl, le_of_lt longer⟩
    · rw [recorded.findDay_of_ne loaded fun key => same key.2.2] at hd'
      exact .inl (knows hd' hx).knows

/-- A merge leaves what is stored under another user or goal. -/
theorem Ending.stores_of_ne (h : Ending s u goal e w ⟨m, w.cache.slot u.id goal, w.nextId⟩ result w')
    (hm : w.store = .memory m) (coherent : (w.cache.slot u.id goal).Coherent m u.id goal)
    {user' goal' : Id} (other : (user', goal') ≠ (u.id, goal)) (stores : w'.Stores user' goal' x) :
    w.Stores user' goal' x := by
  obtain ⟨v', moved, at'⟩ := h.moved
  obtain ⟨date, d, hd, hx⟩ := stores
  refine ⟨date, d, ?_, hx⟩
  rw [at'.store] at hd
  rw [hm]
  exact congrArg Except.ok ((moved.findDay_of_ne coherent other date).symm.trans (Except.ok.inj hd))

/-- A new activity that a merge stores and then stops is in the day that it
saved. -/
theorem Ending.cutShort_of_error {stop : Stop}
    (h : Ending s u goal e w ⟨m, w.cache.slot u.id goal, w.nextId⟩ (.error stop) w') (hm : w.store = .memory m)
    (coherent : (w.cache.slot u.id goal).Coherent m u.id goal) (numbered : m.Numbered w.nextId)
    (exec : (Work.merge s u goal e).exec w = (.error stop, w')) (stores : w'.Stores u.id goal x)
    (new : ¬ w.Knows u.id goal x) : World.CutShort s u.id goal stop w' x := by
  obtain ⟨date, d', hd', hx⟩ := stores
  rcases h.unchanged_or_savedOnly hm coherent numbered with unchanged | ⟨d, saved⟩
  · rw [unchanged.store] at hd'
    exact absurd (World.Stores.knows ⟨date, d', hd', hx⟩) new
  · by_cases same : date = d.date
    · subst same
      cases hd'.symm.trans saved.saved
      exact ⟨w, u, e, _, rfl, exec, saved, hx, new⟩
    · rw [saved.others fun key => same key.2.2] at hd'
      exact absurd (World.Stores.knows ⟨date, d', hd', hx⟩) new

end Merge

/-! ## Analyses -/

section Notifying

variable {s : Settings} {user goal : Id} {w : World}

/-- Each activity that is stored under a user and goal was stored before, or
the user is told of it, or its merge is cut short. -/
def notifying (s : Settings) (user goal : Id) : Course where
  inv w := w.Coherent ∧ w.Numbered ∧ ∀ o ∈ w.outages, o.call ≠ .send
  step w w' := w.Framed w' ∧ ∀ x, w'.Stores user goal x → w.Knows user goal x ∨ w'.Notified user goal x
  stops w stop w' := w.Framed w' ∧ ∀ x, w'.Stores user goal x →
    w.Knows user goal x ∨ w'.Notified user goal x ∨ World.CutShort s user goal stop w' x
  trans {w₁ w₂ w₃} h h' := by
    refine ⟨h.1.trans h'.1, fun x stores => ?_⟩
    rcases h'.2 x stores with ⟨y, stores', grows⟩ | notified
    · exact (h.2 y stores').imp (·.grows grows) (·.grows h'.1.sent grows)
    · exact .inr notified
  stops_trans {w₁ w₂ w₃ stop} h h' := by
    refine ⟨h.1.trans h'.1, fun x stores => ?_⟩
    rcases h'.2 x stores with ⟨y, stores', grows⟩ | accounted
    · exact (h.2 y stores').imp (·.grows grows) fun notified => .inl (notified.grows h'.1.sent grows)
    · exact .inr accounted
  framed h := h.1
  still {w w'} := by
    rintro ⟨coherent, numbered, delivers⟩ h
    refine ⟨⟨?_, ?_, fun o ho => ?_⟩, h.toFramed, fun x stores => .inl ?_⟩
    · unfold World.Coherent at coherent ⊢
      rw [h.store, h.cache]
      exact coherent
    · obtain ⟨m, hm, numbered⟩ := numbered
      exact ⟨m, h.store.trans hm, numbered.mono h.nextId⟩
    · obtain ⟨o', ho', same⟩ := h.outages o ho
      exact same ▸ delivers o' ho'
    · exact (stores.of_store h.store).knows
  halts _ _ h := ⟨h.toFramed, fun _ stores => .inl (stores.of_store h.store).knows⟩

section Merge

variable {u : User} {goal' : Id} {e : UsageEvent} {w' : World} {x : Activity}

theorem notifying_merge (inv : (notifying s user goal).inv w) (u : User) (goal' : Id) (e : UsageEvent) :
    (notifying s user goal).inv ((Work.merge s u goal' e).exec w).2 := by
  obtain ⟨coherent, numbered, delivers⟩ := inv
  refine ⟨coherent.next (s := s) (.merge u goal' e), numbered.next (s := s) coherent (.merge u goal' e),
    fun o ho => ?_⟩
  obtain ⟨o', ho', same⟩ := ((Work.framed_merge s u goal' e).leads w).outages o ho
  exact same ▸ delivers o' ho'

/-- An activity that is stored after a merge was stored before, or the merge
was of this user and goal and created it. -/
theorem notifying_stores_of_ok (inv : (notifying s user goal).inv w) {r : Merged}
    (exec : (Work.merge s u goal' e).exec w = (.ok r, w')) (stores : w'.Stores user goal x) :
    w.Knows user goal x ∨
      (u.id = user ∧ goal' = goal) ∧ ∃ opened, r.outcome = .created x opened := by
  obtain ⟨coherent, ⟨m, hm, numbered⟩, -⟩ := inv
  have own := coherent.of_memory hm u.id goal'
  have ending := Work.merge_ending s u goal' e hm
  rw [exec] at ending
  by_cases key : (user, goal) = (u.id, goal')
  · obtain ⟨rfl, rfl⟩ := Prod.mk.inj key
    exact (ending.stores_of_ok hm own numbered stores).imp id fun created => ⟨⟨rfl, rfl⟩, created⟩
  · exact .inl (ending.stores_of_ne hm own key stores).knows

/-- An activity that is stored after a merge stopped was stored before, or
the merge was cut short. -/
theorem notifying_stores_of_error (inv : (notifying s user goal).inv w) {stop : Stop}
    (exec : (Work.merge s u goal' e).exec w = (.error stop, w')) (stores : w'.Stores user goal x) :
    w.Knows user goal x ∨ World.CutShort s user goal stop w' x := by
  obtain ⟨coherent, ⟨m, hm, numbered⟩, -⟩ := inv
  have own := coherent.of_memory hm u.id goal'
  have ending := Work.merge_ending s u goal' e hm
  rw [exec] at ending
  by_cases key : (user, goal) = (u.id, goal')
  · obtain ⟨rfl, rfl⟩ := Prod.mk.inj key
    by_cases knows : w.Knows u.id goal x
    · exact .inl knows
    · exact .inr (ending.cutShort_of_error hm own numbered exec stores knows)
  · exact .inl (ending.stores_of_ne hm own key stores).knows

end Merge

theorem notifying_serves (a : Analyzer) {u : User}
    (noGo : u.id = user → ∀ g ∈ u.goals, g.id = goal → g.isNoGo = true) :
    (notifying a.settings user goal).Serves a u (fun _ => True) fun _ _ _ => True where
  one {part g w} _ hg inv := by
    have framed := (Work.framed_merge a.settings u g.id part).leads w
    have inv' := notifying_merge inv u g.id part
    unfold Analyzer.processOne
    refine (Work.any (Work.merge a.settings u g.id part) w).exec.bind (fun r w₁ merged => ?_)
      fun stop w₁ merged => ?_
    all_goals
      obtain ⟨exec, -⟩ := merged
      rw [exec] at framed inv'
    · refine Work.WP.ite (fun conflict => ?_) fun peaceful => ?_
      · -- What is new is what the user is told of, whether or not the buddies are told as well.
        have told {w₂ : World} (still : w₁.Still w₂) (notified : w₂.Notified u.id g.id r.outcome.activity)
            (x : Activity) (stores : w₂.Stores user goal x) :
            w.Knows user goal x ∨ w₂.Notified user goal x := by
          rcases notifying_stores_of_ok inv exec (stores.of_store still.store) with
            knows | ⟨⟨rfl, rfl⟩, opened, created⟩
          · exact .inl knows
          · rw [created] at notified
            exact .inr notified
        refine ((Work.notify_sends u g r.outcome.activity part.url inv'.2.2).within
          (Work.still_notify ..)).bind (fun _ w₂ ended => ?_) fun stop w₂ ended => ?_
        all_goals
          obtain ⟨notified, still⟩ := ended
          have inv₂ := ((notifying _ user goal).still inv' still).1
        · exact ⟨⟨inv₂, framed.trans still.toFramed, told still notified⟩, trivial⟩
        · exact ⟨inv₂, framed.trans still.toFramed,
            fun x stores => (told still notified x stores).imp id .inl⟩
      · refine ⟨⟨inv', framed, fun x stores => ?_⟩, trivial⟩
        rcases notifying_stores_of_ok inv exec stores with knows | ⟨⟨rfl, rfl⟩, opened, created⟩
        · exact .inl knows
        · refine absurd ?_ peaceful
          simp [ConflictPolicy.isConflict, noGo rfl g hg rfl, created]
    · exact ⟨inv', framed, fun x stores => (notifying_stores_of_error inv exec stores).imp id .inr⟩
  stable := fun _ _ => trivial

end Notifying

/-! ## Runs of analyses -/

/-- A user comes with a goal only as a no-go goal, and messages to users are
delivered. -/
def Request.Warns (user goal : Id) : Request → Prop
  | network u _ => u.id = user → ∀ g ∈ u.goals, g.id = goal → g.isNoGo = true
  | app u _ => u.id = user → ∀ g ∈ u.goals, g.id = goal → g.isNoGo = true
  | invalidate _ => True
  | surroundings _ _ outages => ∀ o ∈ outages, o.call ≠ .send

section Serve

variable {a : Analyzer} {user goal : Id} {w : World}

/-- A request accounts for each activity that is stored after it: it was
stored before, or the user is told of it, or its merge is cut short and the
request answered with the error. -/
theorem notifying_serve {q : Request} (warns : q.Warns user goal)
    (inv : (notifying a.settings user goal).inv w) :
    (notifying a.settings user goal).inv (w.serve a q) ∧ w.sent <+: (w.serve a q).sent ∧
      ∀ x, (w.serve a q).Stores user goal x → w.Knows user goal x ∨ (w.serve a q).Notified user goal x ∨
        ∃ stop, ((q.run a).exec w).1 = .error stop ∧
          World.CutShort a.settings user goal stop (w.serve a q) x := by
  have accounted {x : Work Reply} {post : Reply → World → Prop}
      (h : (notifying a.settings user goal).Follows x w post) :
      (notifying a.settings user goal).inv (x.exec w).2 ∧ w.sent <+: (x.exec w).2.sent ∧
        ∀ y, (x.exec w).2.Stores user goal y → w.Knows user goal y ∨ (x.exec w).2.Notified user goal y ∨
          ∃ stop, (x.exec w).1 = .error stop ∧
            World.CutShort a.settings user goal stop (x.exec w).2 y := by
    obtain ⟨inv', step | ⟨stop, stopped, stops⟩⟩ := h.leads
    · exact ⟨inv', step.1.sent, fun y stores => (step.2 y stores).imp id .inl⟩
    · exact ⟨inv', stops.1.sent, fun y stores => (stops.2 y stores).imp id
        (.imp id fun cut => ⟨stop, stopped, cut⟩)⟩
  cases q with
  | network u visit =>
    exact accounted (((notifying_serves a warns).network (fun _ _ _ _ _ => trivial) inv).passes Reply.analyzed)
  | app u report =>
    exact accounted
      (((notifying_serves a warns).app (fun _ _ _ _ _ _ _ _ _ => trivial) inv).passes Reply.analyzed)
  | invalidate u =>
    obtain ⟨coherent, numbered, delivers⟩ := inv
    have coherent' := coherent.next (s := a.settings) (.invalidate u)
    have numbered' := numbered.next (s := a.settings) coherent (.invalidate u)
    exact ⟨⟨coherent', numbered', delivers⟩, List.prefix_refl _, fun x stores => .inl stores.knows⟩
  | surroundings now directory outages =>
    obtain ⟨coherent, numbered, -⟩ := inv
    exact ⟨⟨coherent, numbered, warns⟩, List.prefix_refl _, fun x stores => .inl stores.knows⟩

theorem notifying_fresh (s : Settings) (user goal : Id) (now : Instant) (nextId : Nat) :
    (notifying s user goal).inv (World.fresh now nextId) :=
  ⟨World.coherent_fresh now nextId, World.numbered_fresh now nextId, fun _ ho => by cases ho⟩

theorem notifying_served {requests : List Request} (warns : ∀ q ∈ requests, q.Warns user goal)
    (inv : (notifying a.settings user goal).inv w) :
    (notifying a.settings user goal).inv (w.served a requests) :=
  World.served_induction _ inv fun q hq _ inv => (notifying_serve (warns q hq) inv).1

end Serve

/-- Whatever the policy, and whichever store calls fail in a run of analyses:
the user was told of every activity that is stored under a no-go goal, as
long as messages are delivered, unless the merge that created the activity
was cut short, in a request that was answered with the error. -/
theorem conflict_notified_or_cut_short (a : Analyzer) {user goal : Id} (now : Instant) (nextId : Nat)
    {requests : List Request} (warns : ∀ q ∈ requests, q.Warns user goal) {x : Activity}
    (stores : ((World.fresh now nextId).served a requests).Stores user goal x) :
    ((World.fresh now nextId).served a requests).Notified user goal x ∨
    ∃ earlier q later stop y, requests = earlier ++ q :: later ∧
      ((q.run a).exec ((World.fresh now nextId).served a earlier)).1 = .error stop ∧
      World.CutShort a.settings user goal stop ((World.fresh now nextId).served a (earlier ++ [q])) y ∧
      y.Grows x := by
  -- By induction on the requests, the last of which is taken off: it may find activities there.
  induction requests using List.reverseRecOn generalizing x with
  | nil =>
    obtain ⟨_, _, hd, -⟩ := stores
    cases hd
  | append_singleton rest q ih =>
    have warned (q' : Request) (hq' : q' ∈ rest) : q'.Warns user goal := warns q' (List.mem_append_left _ hq')
    have inv := notifying_served (a := a) warned (notifying_fresh _ user goal now nextId)
    have served : (World.fresh now nextId).served a (rest ++ [q]) =
        ((World.fresh now nextId).served a rest).serve a q := World.served_append ..
    obtain ⟨-, sent, accounted⟩ := notifying_serve (warns q (List.mem_append_right _ List.mem_cons_self)) inv
    rw [← served] at sent accounted
    rcases accounted x stores with ⟨y, stores', grows⟩ | notified | ⟨stop, stopped, cut⟩
    · rcases ih warned stores' with notified | ⟨earlier, q', later, stop, z, rfl, stopped, cut, grows'⟩
      · exact .inl (notified.grows sent grows)
      · exact .inr ⟨earlier, q', later ++ [q], stop, z, by simp, stopped, cut, grows'.trans grows⟩
    · exact .inl notified
    · exact .inr ⟨rest, q, [], stop, x, rfl, stopped, cut, .refl x⟩

namespace Sample

/-- The user reads mail. -/
def mailVisit : Request := .network owner ⟨["mail"], "mail", some (event 10).starts, none⟩

/-- Nothing fails. -/
def undisturbed : List Request := [mailCounts [], mailVisit]

/-- The next week cannot be saved, and the analysis of a visit that stops is
repeated. -/
def repeated : List Request := [mailCounts [⟨.saveWeek, 0, 1, .database, []⟩], mailVisit, mailVisit]

theorem warns_mail {outages : List Outage} (delivers : ∀ o ∈ outages, o.call ≠ .send) :
    (mailCounts outages).Warns ⟨1⟩ goal ∧ mailVisit.Warns ⟨1⟩ goal := by
  refine ⟨delivers, fun _ g hg _ => ?_⟩
  cases List.mem_singleton.mp hg
  rfl

/-- The activities that are stored on the date of the visit. -/
def ofVisit (w : World) : List Activity :=
  match (w.store.findDay ⟨1⟩ goal ⟨20095, by decide, by decide⟩).result with
  | .ok (some d) => d.activities
  | _ => []

theorem stores_of_mem_ofVisit {w : World} {x : Activity} (hx : x ∈ ofVisit w) : w.Stores ⟨1⟩ goal x := by
  unfold ofVisit at hx
  split at hx
  · next d hd => exact ⟨_, d, hd, hx⟩
  · cases hx

/-- The user is told of the visit. -/
theorem mail_notified : ∃ x, ((World.fresh .epoch 0).served analyzer undisturbed).Stores ⟨1⟩ goal x ∧
    ((World.fresh .epoch 0).served analyzer undisturbed).Notified ⟨1⟩ goal x := by
  obtain ⟨counts, visit⟩ := @warns_mail [] (by simp)
  obtain ⟨x, hx⟩ := List.exists_mem_of_ne_nil (ofVisit ((World.fresh .epoch 0).served analyzer undisturbed))
    (by decide +kernel)
  have stores := stores_of_mem_ofVisit hx
  refine ⟨x, stores, ?_⟩
  rcases conflict_notified_or_cut_short analyzer .epoch 0 (by simp [undisturbed, counts, visit]) stores with
    notified | ⟨earlier, q, later, stop, y, split, stopped, -, -⟩
  · exact notified
  -- Both requests were answered.
  · have answered : ((mailVisit.run analyzer).exec
        ((World.fresh .epoch 0).served analyzer [mailCounts []])).1.isOk = true := by decide +kernel
    rcases earlier with _ | ⟨q', _ | ⟨q'', earlier⟩⟩
    · cases split
      cases stopped
    · cases split
      rw [stopped] at answered
      cases answered
    · simp [undisturbed] at split

/-- The week of the visit cannot be saved. The repeated analysis succeeds,
and the activity is stored, but nobody was told. -/
theorem conflict_lost :
    ((mailVisit.run analyzer).exec ((World.fresh .epoch 0).served analyzer (repeated.take 2))).1.isOk = true ∧
    ((World.fresh .epoch 0).served analyzer repeated).sent = [] ∧
    ∃ x, ((World.fresh .epoch 0).served analyzer repeated).Stores ⟨1⟩ goal x ∧
      ¬ ((World.fresh .epoch 0).served analyzer repeated).Notified ⟨1⟩ goal x := by
  have silent : ((World.fresh .epoch 0).served analyzer repeated).sent = [] := by decide +kernel
  obtain ⟨x, hx⟩ := List.exists_mem_of_ne_nil (ofVisit ((World.fresh .epoch 0).served analyzer repeated))
    (by decide +kernel)
  refine ⟨by decide +kernel, silent, x, stores_of_mem_ofVisit hx, ?_⟩
  rintro ⟨destination, n, hn, -⟩
  rw [silent] at hn
  cases hn

end Sample
end UsageDiary
