import UsageDiary.Proofs.Analysis.Coverage

/-!
# Reported usage is recorded

When a device's report was analyzed, each of its uses, without the offset of
the device's clock, lies in the stored activities of every goal that it
counts for, and stays there (`reported_usage_recorded`). Only a tail shorter
than the window for skipping may be missing, before the end of the use or
before the midnight that it is split at.

Each part that a use is split into lies in one local day
(`UsageEvent.Splits.daily`), so the day that takes it is not outlasted by it,
and the parts cover the use as long as it spans no more than two dates in a
row (`UsageEvent.Splits.covers`).
-/

namespace UsageDiary

variable {zone : Zone}

/-! ## Parts of an event -/

/-- An event ends by the end of the date it starts at, outside leap seconds. -/
structure UsageEvent.Daily (zone : Zone) (e : UsageEvent) : Prop where
  starts : e.starts.Ordinary
  ends : e.ends.Ordinary
  within : ∃ date, zone.localDate? e.starts = some date ∧
    ∀ next, zone.startOfNextDay date = .ok next → e.ends ≤ next

namespace UsageEvent.Splits

variable {e : UsageEvent} {parts : List UsageEvent}

/-- Each part of an event ends by the end of the date it starts at. -/
theorem daily (h : e.Splits zone parts) (regular : zone.Regular) (starts : e.starts.Ordinary)
    (ends : e.ends.Ordinary) : ∀ p ∈ parts, p.Daily zone := by
  have head {date : Date} {next : Instant} (shows : zone.localDate? e.starts = some date)
      (begins : zone.startOfNextDay date = .ok next) : ({ e with ends := next } : UsageEvent).Daily zone := by
    obtain ⟨following, -, hs⟩ := Zone.startOfNextDay_eq_ok begins
    refine ⟨starts, Zone.ordinary_of_startOfDay hs, date, shows, fun next' begins' => ?_⟩
    cases begins.symm.trans begins'
    exact le_refl next
  cases h with
  | whole shows begins within =>
    intro p hp
    cases List.mem_singleton.mp hp
    refine ⟨starts, ends, _, shows, fun next' begins' => ?_⟩
    cases begins.symm.trans begins'
    exact within
  | cut shows begins =>
    intro p hp
    cases List.mem_singleton.mp hp
    exact head shows begins
  | both shows begins past showsEnd startsEnd =>
    intro p hp
    rcases List.mem_pair.mp hp with rfl | rfl
    · exact head shows begins
    · refine ⟨Zone.ordinary_of_startOfDay startsEnd, ends, _, (regular.first startsEnd).1,
        fun next' begins' => le_of_not_gt fun late => ?_⟩
      exact absurd (regular.lt_date begins' showsEnd (le_of_lt late)) (lt_irrefl _)

theorem device (h : e.Splits zone parts) : ∀ p ∈ parts, p.device = e.device := by
  cases h <;> simp

/-- An instant of an event that spans no more than two dates in a row lies in
one of its parts, which ends where the event does or at the midnight in
between. -/
theorem covers (h : e.Splits zone parts) (regular : zone.Regular)
    (near : ∀ date endDate, zone.localDate? e.starts = some date →
      zone.localDate? e.ends = some endDate → endDate.day ≤ date.day + 1)
    {x : Instant} (after : e.starts ≤ x) (before : x ≤ e.ends) :
    ∃ p ∈ parts, p.starts ≤ x ∧ x ≤ p.ends ∧ (p.ends = e.ends ∨ p.ends ≤ e.ends ∧
      ∃ date, zone.localDate? e.starts = some date ∧ zone.startOfNextDay date = .ok p.ends) := by
  cases h with
  | whole => exact ⟨e, List.mem_singleton_self e, after, before, .inl rfl⟩
  | cut shows begins past showsEnd starts none =>
    have later := regular.lt_date begins showsEnd (le_of_lt past)
    cases starts.symm.trans (Zone.startOfDay_of_next begins later (near _ _ shows showsEnd))
    exact absurd none (not_le_of_gt past)
  | @both date endDate next _ shows begins past showsEnd starts =>
    have later := regular.lt_date begins showsEnd (le_of_lt past)
    cases starts.symm.trans (Zone.startOfDay_of_next begins later (near _ _ shows showsEnd))
    rcases le_or_gt x next with inside | beyond
    · exact ⟨_, List.mem_cons_self, after, inside, .inr ⟨le_of_lt past, date, shows, begins⟩⟩
    · exact ⟨_, List.mem_cons_of_mem _ List.mem_cons_self, le_of_lt beyond, before, .inl rfl⟩

end UsageEvent.Splits

/-! ## Merging a part -/

section Covering

variable {s : Settings} {user : Id} {w w' : World}

/-- An event lies in the stored activities of a user and goal, but for a tail
shorter than the window for skipping. -/
def UsageEvent.Held (s : Settings) (user : Id) (e : UsageEvent) (goal : Id) (w : World) : Prop :=
  ∀ x : Instant, x.Ordinary → e.starts ≤ x → x ≤ e.ends →
    w.HoldsAt user goal e.device x ∨ e.ends.nanos - x.nanos < s.skip

/-- What a user's stored activities hold they keep, and the user keeps a zone. -/
def covering (s : Settings) (zone : Zone) (user : Id) : Course where
  inv w := w.now.Ordinary ∧ w.Steady s zone user
  step w w' := w.Framed w' ∧ w.RetainsOf user w'
  stops w _ w' := w.RetainsOf user w'
  trans h h' := ⟨h.1.trans h'.1, h.2.trans h'.2⟩
  stops_trans h h' := h.2.trans h'
  framed h := h.1
  still inv h := ⟨⟨h.now ▸ inv.1, inv.2.congr h.store h.cache h.nextId⟩, h.toFramed, .of_store h.store⟩
  halts _ _ h := .of_store h.store

/-- A merge keeps what the user's stored activities hold, and adds its event
to it if it ends by the end of its date. -/
theorem covering_merge (timed : s.Timed) (regular : zone.Regular) {u : User} {goal : Id} {e : UsageEvent}
    (own : u.id = user → u.zone = zone ∧ e.Daily zone) (inv : (covering s zone user).inv w) :
    (covering s zone user).Follows (Work.merge s u goal e) w fun _ w' =>
      u.id = user → e.Held s user goal w' := by
  obtain ⟨now, steady⟩ := inv
  have plain : (Act.merge u goal e).Plain [zone] user := fun huser =>
    ⟨by simp [(own huser).1], (own huser).2.starts, (own huser).2.ends⟩
  have steady' : ((Work.merge s u goal e).exec w).2.Steady s zone user := steady.next timed regular plain
  have retains : w.RetainsOf user ((Work.merge s u goal e).exec w).2 :=
    steady.retains regular (.merge u goal e)
  have framed := (Work.framed_merge s u goal e).leads w
  obtain ⟨m, hm, -⟩ := steady.latest
  have ending := Work.merge_ending s u goal e hm
  unfold Course.Follows Work.WP
  generalize (Work.merge s u goal e).exec w = ended at *
  rcases ended with ⟨stop | r, w'⟩
  · exact ⟨⟨framed.now ▸ now, steady'⟩, retains⟩
  · refine ⟨⟨⟨framed.now ▸ now, steady'⟩, framed, retains⟩, fun huser x ordinary after before => ?_⟩
    cases ending with
    | @merged _ d _ _ _ _ _ _ recorded finished at' =>
      have loaded := Scope.load_coherent (v := ⟨m, w.cache.slot u.id goal, w.nextId⟩)
        (steady.keeps.coherent.of_memory hm u.id goal)
      have stored : (w'.store.findDay user goal d.date).result = .ok (some r.day) := by
        have same := MemoryStore.findDay_congr finished.days u.id goal d.date
        rw [at'.store, ← huser]
        exact congrArg Except.ok (same.trans (recorded.findDay_self loaded))
      obtain ⟨⟨-, -, zoned⟩, takes, tidy⟩ :=
        steady.keeps.takes (by simpa using regular) (fun _ => .of_nil) hm plain huser recorded
      obtain ⟨date, shows, within⟩ := (own huser).2.within
      cases List.mem_singleton.mp zoned
      cases (Day.covers_iff regular takes.bounded shows).mp takes.covers
      have fits := within _ takes.bounded.ends
      exact (recorded.applied.holdsAt timed tidy takes fits ordinary after before).imp
        (fun holds => ⟨d.date, r.day, stored, holds⟩) id

/-- Merging a part of an event and notifying the conflict. -/
theorem covering_serves (timed : s.Timed) (regular : zone.Regular) (a : Analyzer) (settings : a.settings = s)
    {u : User} (zoned : u.id = user → u.zone = zone) :
    (covering s zone user).Serves a u (fun part => u.id = user → part.Daily zone)
      fun part goal w => u.id = user → part.Held s user goal w where
  one {part goal w} daily _ inv := by
    unfold Analyzer.processOne
    rw [settings]
    refine (covering_merge timed regular (fun huser => ⟨zoned huser, daily huser⟩) inv).bind
      fun merged w₁ leads held => ?_
    refine Work.WP.ite (fun _ => ?_) fun _ => Course.Follows.pure leads.inv held
    refine (Course.Follows.still leads.inv (Work.still_notify ..)).bind
      fun _ w₂ leads₂ _ => .pure leads₂.inv fun huser x ordinary after before => ?_
    exact (held huser x ordinary after before).imp leads₂.step.2.holdsAt id
  stable step held huser x ordinary after before :=
    (held huser x ordinary after before).imp step.2.holdsAt id

end Covering

/-! ## Runs of analyses -/

/-- A user comes with one zone, and nothing happens within leap seconds. -/
def Request.Plain (zone : Zone) (user : Id) : Request → Prop
  | network u visit => u.id = user → u.zone = zone ∧ ∀ t, visit.time = some t → t.Ordinary
  | app u report => u.id = user → u.zone = zone ∧
      ∀ use ∈ report.uses, use.starts.Ordinary ∧ use.ends.Ordinary
  | invalidate _ => True
  | surroundings now _ _ => now.Ordinary

/-- The bounds of a use without an offset lie outside leap seconds if they
did with it. -/
theorem Analyzer.Corrects.ordinary {offset : Duration} {u u' : AppUse} (h : Corrects offset u u')
    (starts : u.starts.Ordinary) (ends : u.ends.Ordinary) : u'.starts.Ordinary ∧ u'.ends.Ordinary :=
  ⟨(Instant.shift?_of_ordinary starts h.moves.1).1, (Instant.shift?_of_ordinary ends h.moves.2).1⟩

section Serve

variable {s : Settings} {a : Analyzer} {user : Id} {w : World}

/-- A device's report follows the course. -/
theorem covering_app (timed : s.Timed) (regular : zone.Regular) (settings : a.settings = s) {u : User}
    {report : AppReport} (plain : (Request.app u report).Plain zone user)
    (inv : (covering s zone user).inv w) :
    (covering s zone user).Follows (a.app u report) w fun _ w' => ∀ use ∈ report.uses,
      use.starts ≤ use.ends ∧ ∃ u',
        Analyzer.Corrects (DeviceClock.offset a.tolerance w.now report.deviceTime) use u' ∧
        ∀ g ∈ u.goals, g.Counts w.directory [use.application] u'.ends →
          Course.Done (fun part goal w => u.id = user → part.Held s user goal w) u.zone
            ⟨u'.starts, u'.ends, report.device, some u'.application, none⟩ g.id w' := by
  refine (covering_serves timed regular a settings fun huser => (plain huser).1).app ?_ inv
  intro use huse _ u' corrects ps splits p hp huser
  obtain ⟨rfl, ordinary⟩ := plain huser
  obtain ⟨starts, ends⟩ := corrects.ordinary (ordinary use huse).1 (ordinary use huse).2
  exact splits.daily regular starts ends p hp

/-- A request keeps what a user's stored activities hold. -/
theorem covering_serve (timed : s.Timed) (regular : zone.Regular) (settings : a.settings = s)
    {q : Request} (plain : q.Plain zone user) (inv : (covering s zone user).inv w) :
    (covering s zone user).inv (w.serve a q) ∧ w.RetainsOf user (w.serve a q) := by
  have retains {x : Work Reply} {post : Reply → World → Prop} (h : (covering s zone user).Follows x w post) :
      (covering s zone user).inv (x.exec w).2 ∧ w.RetainsOf user (x.exec w).2 := by
    obtain ⟨inv', step | ⟨_, -, stops⟩⟩ := h.leads
    · exact ⟨inv', step.2⟩
    · exact ⟨inv', stops⟩
  cases q with
  | network u visit =>
    have serves := covering_serves timed regular a settings (u := u) fun huser => (plain huser).1
    refine retains ((serves.network ?_ inv).passes Reply.analyzed)
    intro ps url splits p hp huser
    obtain ⟨rfl, ordinary⟩ := plain huser
    have observed : (visit.time.getD w.now).Ordinary := by
      cases htime : visit.time with
      | none => exact inv.1
      | some t => exact ordinary t htime
    exact splits.daily regular observed observed p hp
  | app u report =>
    exact retains ((covering_app timed regular settings plain inv).passes Reply.analyzed)
  | invalidate u =>
    exact ⟨⟨inv.1, (inv.2.next (a := .invalidate u) timed regular trivial).congr rfl rfl (Nat.le_refl _)⟩,
      .of_store rfl⟩
  | surroundings now directory outages =>
    exact ⟨⟨plain, inv.2.congr rfl rfl (Nat.le_refl _)⟩, .of_store rfl⟩

/-- Requests keep what a user's stored activities hold. -/
theorem covering_served (timed : s.Timed) (regular : zone.Regular) (settings : a.settings = s)
    {requests : List Request} (plain : ∀ q ∈ requests, q.Plain zone user)
    (inv : (covering s zone user).inv w) :
    (covering s zone user).inv (w.served a requests) ∧ w.RetainsOf user (w.served a requests) := by
  refine World.served_induction (fun w' => (covering s zone user).inv w' ∧ w.RetainsOf user w')
    ⟨inv, .of_store rfl⟩ fun q hq w' ⟨inv', retains⟩ => ?_
  obtain ⟨inv'', retains'⟩ := covering_serve timed regular settings (plain q hq) inv'
  exact ⟨inv'', retains.trans retains'⟩

end Serve

theorem Analyzer.create_eq_ok {s : Settings} {a : Analyzer} (h : create s = .ok a) :
    s.validate = .ok () ∧ a.settings = s := by
  unfold create at h
  split at h
  · cases h
  · next valid =>
    split at h
    · cases h
      exact ⟨valid, rfl⟩
    · cases h

/-- After a device's report was analyzed, and after any later requests: an
instant of a use, without the offset of the device's clock, lies in a stored
activity of the device under each goal that the use counts for, as long as
the use spans no more than two dates in a row. Only a tail shorter than the
window for skipping may be missing, before the end of the use or the
midnight in between. -/
theorem reported_usage_recorded {s : Settings} {a : Analyzer} (created : Analyzer.create s = .ok a)
    (combine : s.combineMillis < 9223372036854775808) (regular : zone.Regular) {now : Instant}
    (ordinary : now.Ordinary) (nextId : Nat) {user : User} {report : AppReport}
    {earlier later : List Request}
    (plain : ∀ q ∈ earlier ++ .app user report :: later, q.Plain zone user.id)
    {before after : World} {analysis : Analysis} (start : before = (World.fresh now nextId).served a earlier)
    (analyzed : (a.app user report).exec before = (.ok analysis, after)) :
    ∀ use ∈ report.uses, ∃ starts ends, DeviceClock.correct? use.starts use.ends
        (DeviceClock.offset a.tolerance before.now report.deviceTime) = some (starts, ends) ∧
      ((∀ date endDate, zone.localDate? starts = some date → zone.localDate? ends = some endDate →
          endDate.day ≤ date.day + 1) →
        ∀ g ∈ user.goals, g.Counts before.directory [use.application] ends →
          ∀ x : Instant, x.Ordinary → starts ≤ x → x ≤ ends →
            (after.served a later).HoldsAt user.id g.id report.device x ∨
            ends.nanos - x.nanos < s.skip ∨
            ∃ date midnight, zone.localDate? starts = some date ∧
              zone.startOfNextDay date = .ok midnight ∧ x ≤ midnight ∧ midnight ≤ ends ∧
              midnight.nanos - x.nanos < s.skip) := by
  obtain ⟨valid, settings⟩ := Analyzer.create_eq_ok created
  have timed := Settings.timed_of_validate valid combine
  have inv : (covering s zone user.id).inv before := by
    rw [start]
    exact (covering_served timed regular settings (fun q hq => plain q (List.mem_append_left _ hq))
      ⟨ordinary, World.steady_fresh ..⟩).1
  have given := plain _ (List.mem_append_right _ List.mem_cons_self)
  have zoned : user.zone = zone := (given rfl).1
  obtain ⟨leads, recorded⟩ := (covering_app timed regular settings given inv).of_exec analyzed
  have retains := (covering_served timed regular settings
    (fun q hq => plain q (List.mem_append_right _ (List.mem_cons_of_mem _ hq))) leads.inv).2
  intro use huse
  obtain ⟨-, _, ⟨starts, ends, corrected, rfl⟩, done⟩ := recorded use huse
  refine ⟨starts, ends, corrected, fun near g hg counts x hx from_ until_ => ?_⟩
  obtain ⟨parts, splits, held⟩ := done g hg counts
  rw [zoned] at splits
  obtain ⟨p, hp, starts_le, le_ends, last⟩ := splits.covers regular near from_ until_
  rcases held p hp rfl x hx starts_le le_ends with holds | tail
  · have device : p.device = report.device := splits.device p hp
    rw [device] at holds
    exact .inl (retains.holdsAt holds)
  · refine .inr ?_
    rcases last with (same : p.ends = ends) | ⟨within, date, shows, begins⟩
    · rw [same] at tail
      exact .inl tail
    · exact .inr ⟨date, p.ends, shows, begins, le_ends, within, tail⟩

namespace Sample

/-- A device was used for mail from ten minutes before midnight to ten
minutes after it. -/
def mailReport : AppReport := ⟨(event 20).starts, none, [⟨"mail", (event (-10)).starts, (event 10).starts⟩]⟩

/-- An instant three minutes after the midnight that the use of mail is split
at lies in a stored activity, also once the user's slots are emptied. -/
theorem mail_recorded : ∃ after analysis,
    (analyzer.app owner mailReport).exec ((World.fresh .epoch 0).served analyzer [mailCounts []]) =
      (.ok analysis, after) ∧
    (after.served analyzer [.invalidate ⟨1⟩]).HoldsAt ⟨1⟩ goal none (event 3).starts := by
  have plain : ∀ q ∈ [mailCounts []] ++ .app owner mailReport :: [.invalidate ⟨1⟩], q.Plain .utc owner.id := by
    simp only [List.mem_append, List.mem_cons, List.not_mem_nil, or_false]
    rintro q (rfl | rfl | rfl)
    · show (event 20).starts.Ordinary
      decide +kernel
    · refine fun _ => ⟨rfl, fun use huse => ?_⟩
      cases List.mem_singleton.mp huse
      decide +kernel
    · trivial
  have answered : ((analyzer.app owner mailReport).exec
      ((World.fresh .epoch 0).served analyzer [mailCounts []])).1.isOk = true := by decide +kernel
  rcases exec : (analyzer.app owner mailReport).exec
    ((World.fresh .epoch 0).served analyzer [mailCounts []]) with ⟨_ | analysis, after⟩
  · rw [exec] at answered
    cases answered
  refine ⟨after, analysis, rfl, ?_⟩
  obtain ⟨starts, ends, corrected, recorded⟩ := reported_usage_recorded (s := {}) rfl (by decide)
    Zone.regular_utc (by decide) 0 plain rfl exec _ List.mem_cons_self
  have bounds : DeviceClock.correct? (event (-10)).starts (event 10).starts
      (DeviceClock.offset analyzer.tolerance (event 20).starts (event 20).starts) =
        some ((event (-10)).starts, (event 10).starts) := by decide +kernel
  cases bounds.symm.trans corrected
  have counts : limit.Counts [("mail", [⟨5⟩])] ["mail"] (event 10).starts :=
    ⟨⟨"mail", by simp, by decide⟩, by decide +kernel⟩
  have near (date endDate : Date) (shows : Zone.utc.localDate? (event (-10)).starts = some date)
      (showsEnd : Zone.utc.localDate? (event 10).starts = some endDate) : endDate.day ≤ date.day + 1 := by
    rw [Zone.day_of_fixed shows, Zone.day_of_fixed showsEnd]
    decide +kernel
  have split : (Zone.utc.localDate? (event (-10)).starts).map (Zone.utc.startOfNextDay ·) =
      some (.ok (event 0).starts) := by decide +kernel
  rcases recorded near limit List.mem_cons_self counts (event 3).starts (by decide +kernel)
    (by decide +kernel) (by decide +kernel) with holds | tail | ⟨date, midnight, shows, begins, le, -⟩
  · exact holds
  · exact absurd tail (by decide +kernel)
  · rw [shows, Option.map_some, begins] at split
    cases split
    exact absurd le (by decide +kernel)

end Sample
end UsageDiary
