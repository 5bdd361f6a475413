import UsageDiary.Proofs.Merge.Stored

/-!
# Where stored usage comes from

Every instant of a stored activity is owed to an event that was merged for
the same user, goal and device (`stored_usage_reported`): it lies less than
the minimum duration before the start of the event, and at most the window
for combining after the event's end or the minimum duration from its start.

Activities are stretched, moved back and extended over gaps many times, and
neither adds up. What an activity keeps is that its own end is owed to an
event without any gap (`Activity.Owed`). So an instant in the gap that an
extension closes lies within the window after that earlier event
(`Activity.Owed.extend`).
-/

namespace UsageDiary

section Owed

variable (s : Settings) (given : UsageEvent → Prop)

/-- An instant is owed to an event: it lies less than the minimum duration
before the event's start, and no further than some slack behind the event,
which counts as lasting the minimum duration. -/
def UsageEvent.Reaches (slack : Int) (e : UsageEvent) (x : Int) : Prop :=
  e.starts.nanos - s.minimum < x ∧ x ≤ max e.ends.nanos (e.starts.nanos + s.minimum) + slack

/-- The end of an activity is owed to a given event of its device without
slack, and each of its instants to one up to the window for combining. -/
structure Activity.Owed (a : Activity) : Prop where
  ends : ∃ e, given e ∧ e.device = a.device ∧ e.Reaches s 0 a.ends.nanos
  inside : ∀ x, a.starts.nanos ≤ x → x ≤ a.ends.nanos →
    ∃ e, given e ∧ e.device = a.device ∧ e.Reaches s s.combine x

end Owed

variable {s : Settings} {given : UsageEvent → Prop} {d : Day} {e : UsageEvent} {a : Activity}

/-- An event cut at the end of a day ends no later. -/
theorem UsageEvent.nanos_ends_fit_le (e : UsageEvent) (ends : e.ends.Ordinary) (fit : (e.fit d).ends.Ordinary) :
    (e.fit d).ends.nanos ≤ e.ends.nanos := by
  rw [← Instant.le_iff_nanos fit ends, ends_fit]
  exact min_le_left _ _

namespace Activity.Owed

/-- An activity that is created is owed to its event alone. -/
theorem create (timed : s.Timed) (he : given e) (device : a.device = e.device)
    (ends : (e.fit d).ends.nanos ≤ e.ends.nanos) (shaped : s.Shaped d (e.fit d) a.starts a.ends)
    (ordered : e.starts.nanos ≤ (e.fit d).ends.nanos) : a.Owed s given := by
  have positive := timed.minimum_pos
  have window := timed.combine_pos
  have near := shaped.near
  have reaches := shaped.le_ends
  have bound := shaped.ends_le
  rw [UsageEvent.starts_fit] at near bound
  refine ⟨⟨e, he, device.symm, ?_⟩, fun x after before => ⟨e, he, device.symm, ?_⟩⟩
  · unfold UsageEvent.Reaches
    omega
  · unfold UsageEvent.Reaches
    omega

/-- An activity that an event extends. An instant between its old end and
the event lies in the gap that is closed, and so within the window after the
event that the old end is owed to. -/
theorem extend (h : a.Owed s given) (timed : s.Timed) (he : given e) (device : e.device = a.device)
    {ends : Instant} (ordered : e.starts.nanos ≤ ends.nanos) (within : ends.nanos ≤ e.ends.nanos)
    (near : e.starts.nanos ≤ a.ends.nanos + s.combine) :
    ({ a with ends := ends } : Activity).Owed s given := by
  have positive := timed.minimum_pos
  have window := timed.combine_pos
  obtain ⟨e₀, he₀, device₀, reaches⟩ := h.ends
  unfold UsageEvent.Reaches at reaches
  refine ⟨⟨e, he, device, ?_⟩, fun x (after : a.starts.nanos ≤ x) (before : x ≤ ends.nanos) => ?_⟩
  · show e.starts.nanos - s.minimum < ends.nanos ∧
      ends.nanos ≤ max e.ends.nanos (e.starts.nanos + s.minimum) + 0
    omega
  · by_cases old : x ≤ a.ends.nanos
    · exact h.inside x after old
    · by_cases gap : x < e.starts.nanos
      · refine ⟨e₀, he₀, device₀, ?_⟩
        unfold UsageEvent.Reaches
        omega
      · refine ⟨e, he, device, ?_⟩
        unfold UsageEvent.Reaches
        omega

end Activity.Owed

/-- The activities of a tidy day are owed to given events. -/
structure Day.Reported (s : Settings) (given : UsageEvent → Prop) (d : Day) : Prop where
  tidy : d.Tidy s
  owed : ∀ a ∈ d.activities, a.Owed s given

/-- A day stays reported when it takes a given event. -/
theorem Day.Reported.applied {opened : Bool} {next next' : Nat} {r : Merged}
    (h : d.Reported s given) (timed : s.Timed) (takes : d.Takes e next) (he : given e)
    (ordered : e.starts ≤ e.ends) (applied : Applied s d opened (e.fit d) next r next') :
    r.day.Reported s given := by
  refine ⟨h.tidy.applied timed takes applied, fun a ha => ?_⟩
  have fit := takes.ordinary_ends_fit
  have ends := e.nanos_ends_fit_le takes.ends fit
  have inDay : e.starts ≤ (e.fit d).ends := by
    rw [UsageEvent.ends_fit]
    exact le_min ordered (le_of_lt (Day.covers_def.mp takes.covers).2)
  rw [Instant.le_iff_nanos takes.starts fit] at inDay
  have device : (e.fit d).device = e.device := by rw [UsageEvent.fit_eq]
  rcases applied.mem_cases takes.labelled ha with old | ⟨stretched, -, created, -⟩ |
    ⟨last, hlast, decided, -, rfl, -⟩
  · exact h.owed a old
  · exact .create timed he (created.trans device) ends (takes.shaped timed stretched) inDay
  · obtain ⟨_, hlast', -, -, near, -⟩ := (takes.decided timed h.tidy.ordinary decided).of_extend
    cases hlast.symm.trans hlast'
    rw [UsageEvent.starts_fit] at near
    exact (h.owed last (Day.mem_of_last? hlast)).extend timed he
      (device.symm.trans (Day.device_of_last? hlast).symm) inDay ends near

/-- An event was merged among acts for the user and goal of a day. -/
def Day.Brings (acts : List Act) (d : Day) (e : UsageEvent) : Prop :=
  ∃ user, .merge user d.goal e ∈ acts ∧ user.id = d.user

theorem Day.Brings.append {acts : List Act} (later : List Act) (e : UsageEvent) :
    d.Brings acts e → d.Brings (acts ++ later) e
  | ⟨user, he, huser⟩ => ⟨user, List.mem_append_left later he, huser⟩

theorem World.reported_after {zones : List Zone} (timed : s.Timed) (regular : ∀ z ∈ zones, z.Regular)
    {user : Id} (now : Instant) (nextId : Nat) {acts : List Act}
    (plain : ∀ a ∈ acts, a.Plain zones user)
    (ordered : ∀ u goal e, .merge u goal e ∈ acts → e.starts ≤ e.ends) :
    ((fresh now nextId).after s acts).Keeps zones user fun d => d.Reported s (d.Brings acts) := by
  refine after_induction (Keeps zones user fun d => d.Reported s (d.Brings acts))
    (keeps_fresh zones user _ now nextId) fun a ha w h => ?_
  refine h.next regular (plain a ha) (fun d empty => ⟨.of_nil empty, by simp [empty]⟩) ?_
  rintro u goal e d opened next r next' rfl huser dayUser rfl takes applied reported
  have brings : d.Brings acts e := ⟨u, ha, huser.trans dayUser.symm⟩
  have same : r.day.Brings acts = d.Brings acts := by
    unfold Day.Brings
    rw [applied.grows.user, applied.grows.goal]
  exact same ▸ reported.applied timed takes brings (ordered u d.goal e ha) applied

/-- However users' zones change, slots are emptied and store calls fail:
every instant of a stored activity is owed to an event that was merged for
the same user, goal and device. -/
theorem stored_usage_reported (zones : Id → List Zone) (regular : ∀ user, ∀ z ∈ zones user, z.Regular)
    {s : Settings} (valid : s.validate = .ok ()) (combine : s.combineMillis < 9223372036854775808)
    (now : Instant) (nextId : Nat) {acts : List Act} (uses : ∀ a ∈ acts, a.Uses zones)
    (events : ∀ user goal e, .merge user goal e ∈ acts →
      e.starts.Ordinary ∧ e.ends.Ordinary ∧ e.starts ≤ e.ends) :
    ∃ m, ((World.fresh now nextId).after s acts).store = .memory m ∧
      ∀ d ∈ m.days, ∀ a ∈ d.activities, ∀ x : Instant, x.Ordinary → a.starts ≤ x → x ≤ a.ends →
        ∃ user e, .merge user d.goal e ∈ acts ∧ user.id = d.user ∧ e.device = a.device ∧
          e.starts.nanos - s.minimum < x.nanos ∧
          x.nanos ≤ max e.ends.nanos (e.starts.nanos + s.minimum) + s.combine := by
  obtain ⟨m, hm, -⟩ := World.coherent_after (s := s) now nextId acts
  refine ⟨m, hm, fun d hd a ha x ordinary after before => ?_⟩
  have plain (b : Act) (hb : b ∈ acts) : b.Plain (zones d.user) d.user :=
    (uses b hb).plain (fun u goal e same => (events u goal e (same ▸ hb)).imp_right And.left) d.user
  have keeps := World.reported_after (Settings.timed_of_validate valid combine) (regular d.user) now
    nextId plain fun u goal e he => (events u goal e he).2.2
  obtain ⟨tidy, owed⟩ := (World.of_memory keeps.days hm).2 d hd rfl
  obtain ⟨starts, ends⟩ := tidy.ordinary a ha
  obtain ⟨e, ⟨u, he, huser⟩, device, reaches⟩ := (owed a ha).inside x.nanos
    ((Instant.le_iff_nanos starts ordinary).mp after) ((Instant.le_iff_nanos ordinary ends).mp before)
  exact ⟨u, e, he, huser, device, reaches⟩

/-- Two events ten minutes apart, which one activity spans. -/
def Sample.spanned : List Act :=
  [.merge (Sample.user .utc) Sample.goal (Sample.event 600),
    .merge (Sample.user .east14) Sample.goal (Sample.event 610)]

/-- The stored activities under the sample goal that hold an instant. -/
def Sample.holding (w : World) (t : Instant) : List (Day × Activity) :=
  match w.store with
  | .memory m => m.days.flatMap fun d => (d.activities.filter fun a =>
      d.user = ⟨1⟩ ∧ d.goal = goal ∧ a.starts ≤ t ∧ t ≤ a.ends).map (d, ·)
  | .tables _ => []

/-- An instant in the gap between two events is owed to the first of them. -/
theorem Sample.gap_reported : ∃ user e, .merge user Sample.goal e ∈ Sample.spanned ∧ user.id = ⟨1⟩ ∧
    e.starts.nanos - Settings.minimum {} < (Sample.event 605).starts.nanos ∧
    (Sample.event 605).starts.nanos ≤
      max e.ends.nanos (e.starts.nanos + Settings.minimum {}) + Settings.combine {} := by
  have uses : ∀ a ∈ Sample.spanned, a.Uses fun _ => [.utc, .east14] := by
    simp [Sample.spanned, Act.Uses, Sample.user]
  have events : ∀ user goal e, .merge user goal e ∈ Sample.spanned →
      e.starts.Ordinary ∧ e.ends.Ordinary ∧ e.starts ≤ e.ends := by
    intro user goal e he
    simp only [Sample.spanned, List.mem_cons, Act.merge.injEq, List.not_mem_nil, or_false] at he
    rcases he with ⟨-, -, rfl⟩ | ⟨-, -, rfl⟩ <;> decide +kernel
  obtain ⟨m, hm, reported⟩ := stored_usage_reported (fun _ => [.utc, .east14])
    (fun _ => compatible_utc_east14.regular) (s := {}) (by decide) (by decide) .epoch 0 uses events
  have spanned : Sample.holding ((World.fresh .epoch 0).after {} Sample.spanned)
      (Sample.event 605).starts ≠ [] := by decide +kernel
  obtain ⟨⟨d, a⟩, holds⟩ := List.exists_mem_of_ne_nil _ spanned
  simp only [Sample.holding, hm, List.mem_flatMap, List.mem_map, List.mem_filter,
    decide_eq_true_eq] at holds
  obtain ⟨_, hd, _, ⟨ha, huser, hgoal, after, before⟩, same⟩ := holds
  obtain ⟨user, e, he, hid, -, reaches⟩ := reported _ hd _ ha _ (by decide +kernel) after before
  rw [hgoal] at he
  exact ⟨user, e, he, hid.trans huser, reaches⟩

end UsageDiary
