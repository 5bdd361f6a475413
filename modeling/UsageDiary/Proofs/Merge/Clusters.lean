import UsageDiary.Proofs.Analysis.Coverage
import UsageDiary.Proofs.Day.Clusters

/-!
# Merges make clusters

Events of one device, merged in order of their starts into a day of a user
who keeps a zone, leave one activity for each cluster of them
(`merged_clusters`), if no growth of an activity is too little to be kept.

A merge into the day of a date goes to the stored day of that date, or to
one that is opened for it (`World.Steady.merge_used`). So each event is
compared with what the events before it left (`World.Gathers`).
-/

namespace UsageDiary

/-- The stored activities of a user, goal and device on a date. -/
def World.used (w : World) (user goal : Id) (date : Date) (device : Option Id) : List Activity :=
  match (w.store.findDay user goal date).result with
  | .ok (some d) => d.used device
  | _ => []

theorem World.used_eq {w : World} {m : MemoryStore} (hm : w.store = .memory m) {user goal : Id} {date : Date}
    {d : Day} (device : Option Id)
    (holds : m.findDay user goal date = some d ∨ m.findDay user goal date = none ∧ d.activities = []) :
    w.used user goal date device = d.used device := by
  have stored : (w.store.findDay user goal date).result = .ok (m.findDay user goal date) := by
    rw [hm]
    rfl
  unfold used
  rcases holds with found | ⟨none, nil⟩
  · rw [stored, found]
  · rw [stored, none, Day.used, nil]
    rfl

/-- An event outside leap seconds lies between the bounds of a date in a
zone, and is no shorter than a new activity. -/
structure UsageEvent.OnDate (s : Settings) (zone : Zone) (date : Date) (e : UsageEvent) : Prop where
  starts : e.starts.Ordinary
  ends : e.ends.Ordinary
  shows : zone.localDate? e.starts = some date
  within : ∀ {next}, zone.startOfNextDay date = .ok next → e.ends ≤ next
  long : s.minimum ≤ e.ends.since e.starts

namespace UsageEvent.OnDate

variable {s : Settings} {zone : Zone} {date : Date} {e : UsageEvent}

theorem lasts (h : e.OnDate s zone date) : e.starts.nanos + s.minimum ≤ e.ends.nanos := by
  have long := h.long
  rw [Instant.since_of_ordinary h.ends h.starts] at long
  change (_ : Int) ≤ _ - _ at long
  omega

theorem forward (h : e.OnDate s zone date) (timed : s.Timed) : e.Forward := by
  have lasts := h.lasts
  have positive := timed.minimum_pos
  exact ⟨h.starts, h.ends, by omega⟩

theorem ordered (h : e.OnDate s zone date) (timed : s.Timed) : e.starts ≤ e.ends :=
  (Instant.le_iff_nanos h.starts h.ends).mpr (h.forward timed).ordered

/-- The calendar has all that is asked for: the event spans the least length
of an activity itself. -/
theorem inRange (h : e.OnDate s zone date) (timed : s.Timed) {start next : Instant}
    (opens : zone.startOfDay date = .ok start) (closes : zone.startOfNextDay date = .ok next) :
    e.InRange s zone := by
  obtain ⟨following, -, begins⟩ := Zone.startOfNextDay_eq_ok closes
  have bound := Zone.ordinary_of_startOfDay begins
  have within := h.within closes
  rw [Instant.le_iff_nanos h.ends bound] at within
  have lasts := h.lasts
  have positive := timed.minimum_pos
  refine ⟨date, h.shows, start, mem_toOption.mpr opens, next, mem_toOption.mpr closes, fun length hlength => ?_⟩
  rw [Option.mem_def, timed.minimum, Option.some.injEq] at hlength
  cases hlength
  constructor
  · exact Instant.isSome_shift? h.starts h.starts h.ends (by omega) (by omega)
  · exact Instant.isSome_shift? bound h.starts bound (by omega) (by omega)

end UsageEvent.OnDate

namespace World

variable {s : Settings} {user : User} {goal : Id} {e : UsageEvent} {w : World} {date : Date}
  {start next : Instant}

/-- A merge of a user who keeps a zone ends in a value where no call fails. -/
theorem Steady.merge_answers (h : w.Steady s user.zone user.id) (goal : Id) (calm : w.outages = [])
    (timed : s.Timed) (regular : user.zone.Regular) (opens : user.zone.startOfDay date = .ok start)
    (closes : user.zone.startOfNextDay date = .ok next) (onDate : e.OnDate s user.zone date) :
    ∃ r, ((Work.merge s user goal e).exec w).1 = .ok r := by
  have zone : user.zone ∈ [user.zone] := List.mem_singleton_self _
  obtain ⟨m, hm, days, -⟩ := h.keeps.days
  have coherent := Scope.load_coherent (v := ⟨m, w.cache.slot user.id goal, w.nextId⟩)
    (h.keeps.coherent.of_memory hm user.id goal)
  have ending := Work.merge_ending s user goal e hm
  cases result : ((Work.merge s user goal e).exec w).1 with
  | ok r => exact ⟨r, rfl⟩
  | error stop =>
    rw [result] at ending
    have unfailing : ¬ w.Failing stop := fun failing => failing.1 calm
    cases ending with
    | unloaded failing => exact absurd failing unfailing
    | unrecorded why =>
      obtain ⟨-, c, -, -, blocked⟩ := (why.resolve_left unfailing).blocked timed.measured
        (compatible_singleton regular).regular (days goal) zone coherent (onDate.ordered timed)
        (by simpa using onDate.inRange timed opens closes)
      exact ((days goal).not_blocked regular c.zone blocked).elim
    | unattached recorded why =>
      exact absurd (recorded.lt_last (days goal) zone coherent) (not_lt_of_ge (why.resolve_left unfailing))

/-- A merge of a user who keeps a zone goes to the day of the date that the
zone shows, which was without activities if it was not stored. -/
theorem Steady.merge_used (h : w.Steady s user.zone user.id) (goal : Id) (regular : user.zone.Regular)
    (closes : user.zone.startOfNextDay date = .ok next) (onDate : e.OnDate s user.zone date) {r : Merged}
    (answer : ((Work.merge s user goal e).exec w).1 = .ok r) :
    ∃ d opened id id', d.Takes e id ∧ d.Tidy s ∧ e.ends ≤ d.ends ∧ Applied s d opened (e.fit d) id r id' ∧
      (∀ device, w.used user.id goal date device = d.used device) ∧
      ∀ device, ((Act.merge user goal e).next s w).used user.id goal date device = r.day.used device := by
  have plain : (Act.merge user goal e).Plain [user.zone] user.id :=
    fun _ => ⟨List.mem_singleton_self _, onDate.starts, onDate.ends⟩
  have compatible := compatible_singleton regular
  obtain ⟨m, hm, latest⟩ := h.latest
  obtain ⟨days, -⟩ := World.of_memory h.keeps.days hm
  have last := Scope.load_isLast (v := ⟨m, w.cache.slot user.id goal, w.nextId⟩) (latest goal)
  have coherent := Scope.load_coherent (v := ⟨m, w.cache.slot user.id goal, w.nextId⟩)
    (h.keeps.coherent.of_memory hm user.id goal)
  have ending := Work.merge_ending s user goal e hm
  rw [answer] at ending
  cases ending with
  | @merged p d opened id _ v' v'' w' recorded finished at' =>
    obtain ⟨⟨-, -, hzone⟩, takes, tidy⟩ :=
      h.keeps.takes compatible.regular (fun _ => .of_nil) hm plain rfl recorded
    rw [List.mem_singleton] at hzone
    have hdate : date = d.date :=
      (Day.covers_iff (hzone ▸ regular) takes.bounded (hzone ▸ onDate.shows)).mp takes.covers
    have fits : e.ends ≤ d.ends := by
      cases closes.symm.trans (hdate ▸ hzone ▸ takes.bounded.ends)
      exact onDate.within closes
    have stored : m.findDay user.id goal date = some d ∨
        m.findDay user.id goal date = none ∧ d.activities = [] := by
      rw [hdate]
      cases opened with
      | false => exact .inl (recorded.holds_of_kept coherent)
      | true => exact .inr ⟨recorded.free compatible (days goal) last coherent, recorded.taken.nil_of_opened⟩
    have saved : v''.store.findDay user.id goal date = some r.day := by
      rw [MemoryStore.findDay_congr finished.days, hdate]
      exact recorded.findDay_self coherent
    exact ⟨d, opened, id, _, takes, tidy, fits, recorded.applied,
      fun device => used_eq hm device stored, fun device => used_eq at'.store device (.inl saved)⟩

/-- The activities of a device on a date are the clusters of events gathered
so far, in a world where a user keeps a zone and no call fails. -/
structure Gathers (s : Settings) (zone : Zone) (user goal : Id) (date : Date) (device : Option Id)
    (events : List UsageEvent) (w : World) : Prop where
  steady : w.Steady s zone user
  calm : w.outages = []
  clustered : ∃ clusters : List (List UsageEvent), clusters.flatten = events ∧
    Clustered s clusters (w.used user goal date device)

variable {device : Option Id} {events : List UsageEvent}

/-- An event that starts no earlier than those gathered is gathered. -/
theorem Gathers.merge (h : w.Gathers s user.zone user.id goal date device events) (timed : s.Timed)
    (noSkip : s.skip = 0) (regular : user.zone.Regular) (opens : user.zone.startOfDay date = .ok start)
    (closes : user.zone.startOfNextDay date = .ok next) (forward : ∀ f ∈ events, f.Forward)
    (later : ∀ f ∈ events, f.starts ≤ e.starts) (same : e.device = device)
    (onDate : e.OnDate s user.zone date) : (∃ r, ((Work.merge s user goal e).exec w).1 = .ok r) ∧
      ((Act.merge user goal e).next s w).Gathers s user.zone user.id goal date device (events ++ [e]) := by
  obtain ⟨r, answer⟩ := h.steady.merge_answers goal h.calm timed regular opens closes onDate
  obtain ⟨d, opened, id, id', takes, tidy, fits, applied, used, used'⟩ :=
    h.steady.merge_used goal regular closes onDate answer
  obtain ⟨clusters, rfl, clustered⟩ := h.clustered
  subst same
  rw [used] at clustered
  have inOrder (last : Activity) (hlast : d.last? e.device = some last) : last.starts ≤ e.starts := by
    obtain ⟨before, split⟩ := Day.exists_used_eq hlast
    rw [split] at clustered
    obtain ⟨earlier, c, rfl, -, hull, -⟩ := clustered.exists_last
    obtain ⟨f, hf, starts⟩ := hull.exists_starts
    exact starts ▸ later f (List.mem_flatten.mpr ⟨c, List.mem_append_right _ List.mem_cons_self, hf⟩)
  refine ⟨⟨r, answer⟩, ?_, ?_, ?_⟩
  · exact h.steady.next timed regular fun _ => ⟨List.mem_singleton_self _, onDate.starts, onDate.ends⟩
  · obtain ⟨m, hm, -⟩ := h.steady.latest
    obtain ⟨v', -, at'⟩ := (Work.merge_ending s user goal e hm).moved
    exact at'.outages h.calm
  · rw [used']
    rcases applied.used_eq timed noSkip takes tidy fits onDate.long inOrder with
      ⟨a, starts, ends, pushed, apart⟩ | ⟨before, last, split, near, moved⟩
    · rw [pushed]
      refine ⟨clusters ++ [[e]], by simp, clustered.push_apart starts ends forward (onDate.forward timed) later
        fun last hlast => apart last ?_⟩
      rw [← d.getLast?_used, hlast]
    · rw [split] at clustered
      rw [moved]
      exact clustered.push_near forward (onDate.forward timed) later timed.combine_pos near

/-- By induction on the events still to be merged: all of them start no
earlier than those gathered. -/
theorem Gathers.run (timed : s.Timed) (noSkip : s.skip = 0) (regular : user.zone.Regular)
    (opens : user.zone.startOfDay date = .ok start) (closes : user.zone.startOfNextDay date = .ok next)
    {more : List UsageEvent} (h : w.Gathers s user.zone user.id goal date device events)
    (forward : ∀ f ∈ events, f.Forward)
    (onDate : ∀ e ∈ more, e.device = device ∧ e.OnDate s user.zone date)
    (inOrder : (events ++ more).Pairwise fun e f => e.starts ≤ f.starts) :
    (∀ answer ∈ w.answers s (more.map (.merge user goal)), ∃ r, answer = .ok r) ∧
      (w.after s (more.map (.merge user goal))).Gathers s user.zone user.id goal date device
        (events ++ more) := by
  induction more generalizing w events with
  | nil =>
    rw [List.append_nil]
    exact ⟨fun _ none => absurd none List.not_mem_nil, h⟩
  | cons e rest ih =>
    obtain ⟨same, here⟩ := onDate e List.mem_cons_self
    have later (f : UsageEvent) (hf : f ∈ events) : f.starts ≤ e.starts :=
      (List.pairwise_append.mp inOrder).2.2 f hf e List.mem_cons_self
    obtain ⟨⟨r, answer⟩, gathered⟩ := h.merge timed noSkip regular opens closes forward later same here
    rw [List.append_cons] at inOrder ⊢
    have forward' (f : UsageEvent) (hf : f ∈ events ++ [e]) : f.Forward := by
      rcases List.mem_append.mp hf with hf | hf
      · exact forward f hf
      · cases List.mem_singleton.mp hf
        exact here.forward timed
    obtain ⟨answers, done⟩ := ih gathered forward' (fun f hf => onDate f (List.mem_cons_of_mem e hf)) inOrder
    refine ⟨fun a ha => ?_, done⟩
    rcases List.mem_cons.mp ha with rfl | ha
    · exact ⟨r, answer⟩
    · exact answers a ha

end World

/-- Where a user keeps a regular zone and every growth of an activity is
kept: events of one device that lie on one date, each no shorter than a new
activity, are all merged in order of their starts. On that date, if the
device had no activities there before, they leave one for each cluster of
the events, from its least start to its greatest end. -/
theorem merged_clusters {s : Settings} (valid : s.validate = .ok ())
    (combine : s.combineMillis < 9223372036854775808) (noSkip : s.skipMillis = 0) (now : Instant)
    (nextId : Nat) (user : User) (regular : user.zone.Regular) {acts : List Act}
    (plain : ∀ a ∈ acts, a.Plain [user.zone] user.id) (goal : Id) {date : Date} {start next : Instant}
    (opens : user.zone.startOfDay date = .ok start) (closes : user.zone.startOfNextDay date = .ok next)
    {device : Option Id} {events : List UsageEvent}
    (onDate : ∀ e ∈ events, e.device = device ∧ e.OnDate s user.zone date)
    (inOrder : events.Pairwise fun e f => e.starts ≤ f.starts)
    (calm : ((World.fresh now nextId).after s acts).outages = [])
    (unused : ((World.fresh now nextId).after s acts).used user.id goal date device = []) :
    let w := (World.fresh now nextId).after s acts
    let merges := events.map (Act.merge user goal)
    (∀ answer ∈ w.answers s merges, ∃ r, answer = .ok r) ∧
      ∃ clusters, Clusters s events clusters ((w.after s merges).used user.id goal date device) := by
  intro w merges
  have timed := Settings.timed_of_validate valid combine
  have skip : s.skip = 0 := by
    unfold Settings.skip
    rw [noSkip]
    rfl
  have steady : w.Steady s user.zone user.id :=
    World.after_induction (World.Steady s user.zone user.id) (World.steady_fresh ..)
      fun a ha _ h => h.next timed regular (plain a ha)
  have empty : w.Gathers s user.zone user.id goal date device [] :=
    ⟨steady, calm, [], rfl, unused ▸ .nil⟩
  obtain ⟨answers, -, -, clusters, rfl, clustered⟩ :=
    empty.run timed skip regular opens closes (fun _ none => absurd none List.not_mem_nil) onDate inOrder
  exact ⟨answers, clusters, clustered.toClusters (fun e he => (onDate e he).2.forward timed) timed.combine_pos⟩

namespace Sample

/-- Settings by which every growth of an activity is kept. -/
def gathering : Settings := { skipMillis := 0 }

/-- A service that recorded usage of another device. -/
def elsewhere : List Act := [.merge (user .utc) goal { event 601 with device := some ⟨9⟩ }]

/-- Two events five minutes apart and one that comes half an hour later. -/
def sessions : List UsageEvent := [event 600, event 605, event 640]

/-- They make two clusters. -/
theorem sessions_clustered : ∃ clusters : List (List UsageEvent), clusters.length = 2 ∧
    Clusters gathering sessions clusters (World.used (((World.fresh .epoch 0).after gathering elsewhere).after
      gathering (sessions.map (.merge (user .utc) goal))) ⟨1⟩ goal tuesday none) := by
  have plain : ∀ a ∈ elsewhere, a.Plain [Zone.utc] ⟨1⟩ := by
    intro a ha
    cases List.mem_singleton.mp ha
    exact fun _ => ⟨List.mem_singleton_self _, by decide +kernel, by decide +kernel⟩
  have onDate : ∀ e ∈ sessions, e.device = none ∧ e.OnDate gathering .utc tuesday := by
    have bounded : ∀ e ∈ sessions, (Zone.utc.startOfNextDay tuesday).toOption.all (e.ends ≤ ·) = true := by
      decide +kernel
    have rest : ∀ e ∈ sessions, e.device = none ∧ e.starts.Ordinary ∧ e.ends.Ordinary ∧
        Zone.utc.localDate? e.starts = some tuesday ∧ gathering.minimum ≤ e.ends.since e.starts := by
      decide +kernel
    intro e he
    obtain ⟨device, starts, ends, shows, long⟩ := rest e he
    refine ⟨device, starts, ends, shows, fun closes => ?_, long⟩
    have within := bounded e he
    rw [closes] at within
    exact of_decide_eq_true within
  obtain ⟨start, opens⟩ := exists_of_isOk (show (Zone.utc.startOfDay tuesday).isOk = true by decide +kernel)
  obtain ⟨next, closes⟩ := exists_of_isOk (show (Zone.utc.startOfNextDay tuesday).isOk = true by decide +kernel)
  obtain ⟨-, clusters, made⟩ := merged_clusters (s := gathering) (by decide) (by decide) rfl .epoch 0
    (user .utc) Zone.regular_utc plain goal opens closes onDate (by decide +kernel) (by decide +kernel)
    (by decide +kernel)
  refine ⟨clusters, ?_, made⟩
  rw [← made.hulls.length_eq]
  decide +kernel

end Sample
end UsageDiary
