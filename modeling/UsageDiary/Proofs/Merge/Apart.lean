import UsageDiary.Proofs.Day.Used
import UsageDiary.Proofs.Merge.Provenance

/-!
# Activities of one device do not overlap

When the events of a user, goal and device arrive in order of their starts,
the activities of the device in a stored day lie one after the other: each
ends before the next one starts (`stored_activities_apart`).

An activity moved back at the end of its day starts before its event, and
one that was extended ends later than the event it was created for. So the
order of the events does not by itself keep activities apart. What does is
that the last activity of a device starts no later than some event that
arrived (`Day.Spaced.begun`). No later event comes before it, and one that
is too late for it comes after a gap that a new activity cannot bridge: an
activity starts less than the minimum duration before its event.
-/

namespace UsageDiary

/-! ## Spaced days -/

/-- The activities of one device lie one after the other: each ends before
the next one starts. -/
def Day.Apart (d : Day) : Prop :=
  d.activities.Pairwise fun a b => a.device = b.device → a.ends < b.starts

/-- The activities of a tidy day are apart, and each of them starts no later
than a given event of its device. -/
structure Day.Spaced (s : Settings) (given : UsageEvent → Prop) (d : Day) : Prop where
  tidy : d.Tidy s
  apart : d.Apart
  begun : ∀ a ∈ d.activities, ∃ e, given e ∧ e.device = a.device ∧ a.starts ≤ e.starts

section Spaced

variable {s : Settings} {given : UsageEvent → Prop} {d : Day} {e : UsageEvent} {a last : Activity}

theorem Activity.Fills.ordered (h : a.Fills s d) (timed : s.Timed) (bounds : d.starts ≤ d.ends) :
    a.starts ≤ a.ends := by
  have positive := timed.minimum_pos
  rcases h.lasts with lasts | ⟨starts, ends⟩
  · rw [Instant.le_iff_nanos h.ordinary.1 h.ordinary.2]
    omega
  · rw [starts, ends]
    exact bounds

namespace Day.Spaced

theorem of_nil (h : d.activities = []) : d.Spaced s given :=
  ⟨.of_nil h, by simp [Day.Apart, h], by simp [h]⟩

theorem mono {given' : UsageEvent → Prop} (h : d.Spaced s given) (more : ∀ e, given e → given' e) :
    d.Spaced s given' := by
  refine ⟨h.tidy, h.apart, fun a ha => ?_⟩
  obtain ⟨e, he, device, before⟩ := h.begun a ha
  exact ⟨e, more e he, device, before⟩

/-- The last activity of a device ends last. -/
theorem ends_le_last (h : d.Spaced s given) (timed : s.Timed) (bounds : d.starts ≤ d.ends)
    {device : Option Id} (hlast : d.last? device = some last) (ha : a ∈ d.activities)
    (same : a.device = device) : a.ends ≤ last.ends := by
  have mem := Day.mem_of_last? hlast
  rcases Day.pairwise_last? hlast h.apart ha same with rfl | apart
  · exact le_refl _
  · have before := apart (same.trans (Day.device_of_last? hlast).symm)
    exact le_trans (le_of_lt before) ((h.tidy.fills last mem).ordered timed bounds)

/-- An event no earlier than the given ones creates an activity after all
others of its device. -/
theorem lt_created (h : d.Spaced s given) (timed : s.Timed) (short : s.minimum ≤ s.combine)
    {next : Nat} (takes : d.Takes e next)
    (late : ∀ e', given e' → e'.device = e.device → e'.starts ≤ e.starts)
    (decided : s.decide? d (e.fit d) = some .create) {starts ends : Instant}
    (shaped : s.Shaped d (e.fit d) starts ends) (ha : a ∈ d.activities) (same : a.device = e.device) :
    a.ends < starts := by
  have device : (e.fit d).device = e.device := by rw [UsageEvent.fit_eq]
  have near := shaped.near
  rw [UsageEvent.starts_fit] at near
  cases takes.decided timed h.tidy.ordinary decided with
  | first none =>
    have some : (d.last? (e.fit d).device).isSome :=
      List.find?_isSome.mpr ⟨a, List.mem_reverse.mpr ha, by simp [device, same]⟩
    simp [none] at some
  | @earlier last hlast before =>
    obtain ⟨e', he', device', begun⟩ := h.begun last (Day.mem_of_last? hlast)
    have order := late e' he' (device'.trans ((Day.device_of_last? hlast).trans device))
    rw [UsageEvent.starts_fit] at before
    exact absurd (le_trans begun order) (not_le_of_gt before)
  | @apart last hlast _ gap =>
    have ended := h.ends_le_last timed takes.starts_le_ends hlast ha (same.trans device.symm)
    have ordinary := (h.tidy.fills a ha).ordinary.2
    rw [Instant.le_iff_nanos ordinary (h.tidy.fills last (Day.mem_of_last? hlast)).ordinary.2] at ended
    rw [Instant.lt_iff_nanos ordinary shaped.ordinary_starts]
    rw [UsageEvent.starts_fit] at gap
    omega

/-- Activities stay apart when an event no earlier than the given ones is
recorded. -/
theorem apart_applied (h : d.Spaced s given) (timed : s.Timed) (short : s.minimum ≤ s.combine)
    {opened : Bool} {next next' : Nat} {r : Merged} (takes : d.Takes e next)
    (late : ∀ e', given e' → e'.device = e.device → e'.starts ≤ e.starts)
    (applied : Applied s d opened (e.fit d) next r next') : r.day.Apart := by
  have bounds := takes.starts_le_ends
  have ordered {a : Activity} (ha : a ∈ d.activities) : a.starts ≤ a.ends :=
    (h.tidy.fills a ha).ordered timed bounds
  have device : (e.fit d).device = e.device := by rw [UsageEvent.fit_eq]
  cases applied with
  | create decided stretched added =>
    obtain ⟨-, rfl⟩ := Day.add_eq added
    have shaped := takes.shaped timed stretched
    apply Day.pairwise_insert h.tidy.sorted h.apart
    · intro b hb _ same
      exact h.lt_created timed short takes late decided shaped hb (same.trans device)
    · intro b hb behind same
      have before := h.lt_created timed short takes late decided shaped hb (same.symm.trans device)
      exact absurd (le_trans (ordered hb) (le_of_lt before)) (not_le_of_gt behind)
  | extend decided extended =>
    obtain ⟨last, hlast, rfl, longer⟩ := Settings.lt_ends_of_extend decided
    have mem := Day.mem_of_last? hlast
    obtain ⟨-, -, rfl⟩ := Day.extend_eq takes.labelled mem longer extended
    apply List.pairwise_map.mpr
    refine h.apart.imp_of_mem fun {a b} ha hb apart => ?_
    -- Only the end of the last activity moves, and none of its device is behind it.
    have kept {c : Activity} (hc : c ∈ d.activities) :
        (if c.id = last.id then { last with ends := (e.fit d).ends } else c).starts = c.starts ∧
        (if c.id = last.id then { last with ends := (e.fit d).ends } else c).device = c.device := by
      split
      · next hid => rw [takes.labelled.eq_of_id hc mem hid]; exact ⟨rfl, rfl⟩
      · exact ⟨rfl, rfl⟩
    rw [(kept hb).1, (kept ha).2, (kept hb).2]
    intro same
    have gap := apart same
    split
    · next hid =>
      cases takes.labelled.eq_of_id ha mem hid
      have ended := h.ends_le_last timed bounds hlast hb
        (same.symm.trans (Day.device_of_last? hlast))
      exact absurd (le_trans (ordered hb) ended) (not_le_of_gt gap)
    · exact gap
  | absorb => exact h.apart

/-- A day stays spaced when it takes a given event that is no earlier than
the others of its device. -/
theorem applied (h : d.Spaced s given) (timed : s.Timed) (short : s.minimum ≤ s.combine)
    {opened : Bool} {next next' : Nat} {r : Merged} (takes : d.Takes e next) (he : given e)
    (late : ∀ e', given e' → e'.device = e.device → e'.starts ≤ e.starts)
    (applied : Applied s d opened (e.fit d) next r next') : r.day.Spaced s given := by
  refine ⟨h.tidy.applied timed takes applied, h.apart_applied timed short takes late applied,
    fun a ha => ?_⟩
  rcases applied.mem_cases takes.labelled ha with old | ⟨stretched, -, device, -⟩ |
    ⟨last, hlast, -, -, rfl, -⟩
  · exact h.begun a old
  · have shaped := takes.shaped timed stretched
    have before := shaped.starts_le
    rw [UsageEvent.starts_fit, ← Instant.le_iff_nanos shaped.ordinary_starts takes.starts] at before
    exact ⟨e, he, by rw [device, UsageEvent.fit_eq], before⟩
  · exact h.begun last (Day.mem_of_last? hlast)

end Day.Spaced

end Spaced

/-! ## Runs -/

/-- Of two merges for one user, goal and device, the later one's event
starts no earlier. -/
def Act.InOrder : Act → Act → Prop
  | merge u goal e, merge u' goal' e' =>
    u.id = u'.id → goal = goal' → e.device = e'.device → e.starts ≤ e'.starts
  | _, _ => True

/-- In every world that a run with events in order reaches, the stored days
of a user are spaced. The induction adds the acts at the end: each event is
compared with those that arrived before it. -/
theorem World.spaced_after {s : Settings} {zones : List Zone} (timed : s.Timed)
    (short : s.minimum ≤ s.combine) (regular : ∀ z ∈ zones, z.Regular) {user : Id} (now : Instant)
    (nextId : Nat) {acts : List Act} (plain : ∀ a ∈ acts, a.Plain zones user)
    (inOrder : acts.Pairwise Act.InOrder) :
    ((fresh now nextId).after s acts).Keeps zones user fun d => d.Spaced s (d.Brings acts) := by
  induction acts using List.reverseRecOn with
  | nil => exact keeps_fresh zones user _ now nextId
  | append_singleton acts a ih =>
    obtain ⟨before, -, late⟩ := List.pairwise_append.mp inOrder
    have kept := (ih (fun b hb => plain b (List.mem_append_left _ hb)) before).mono
      fun d h => h.mono (Day.Brings.append [a])
    rw [World.after, List.foldl_append]
    refine Keeps.next kept regular (plain a (List.mem_append_right _ List.mem_cons_self))
      (fun d => .of_nil) ?_
    rintro u goal e d opened next r next' rfl huser dayUser rfl takes applied spaced
    have given : d.Brings (acts ++ [.merge u d.goal e]) e :=
      ⟨u, List.mem_append_right _ List.mem_cons_self, huser.trans dayUser.symm⟩
    have same : r.day.Brings (acts ++ [.merge u d.goal e]) = d.Brings (acts ++ [.merge u d.goal e]) := by
      unfold Day.Brings
      rw [applied.grows.user, applied.grows.goal]
    rw [same]
    refine spaced.applied timed short takes given ?_ applied
    rintro e' ⟨u', he', huser'⟩ device
    rcases List.mem_append.mp he' with he' | he'
    · have order := late _ he' _ List.mem_cons_self
      exact order (huser'.trans (dayUser.trans huser.symm)) rfl device
    · cases List.mem_singleton.mp he'
      exact le_refl _

/-- However users' zones change, slots are emptied and store calls fail: if
the events of each user, goal and device are merged in order of their
starts, the activities of each device in a stored day lie one after the
other. -/
theorem stored_activities_apart (zones : Id → List Zone)
    (regular : ∀ user, ∀ z ∈ zones user, z.Regular) {s : Settings} (valid : s.validate = .ok ())
    (combine : s.combineMillis < 9223372036854775808) (short : s.minimumMillis ≤ s.combineMillis)
    (now : Instant) (nextId : Nat) {acts : List Act} (uses : ∀ a ∈ acts, a.Uses zones)
    (events : ∀ user goal e, .merge user goal e ∈ acts →
      e.starts.Ordinary ∧ e.ends.Ordinary ∧ e.starts ≤ e.ends)
    (inOrder : acts.Pairwise Act.InOrder) :
    ∃ m, ((World.fresh now nextId).after s acts).store = .memory m ∧
      ∀ d ∈ m.days, d.activities.Pairwise fun a b => a.device = b.device → a.ends < b.starts := by
  obtain ⟨m, hm, -⟩ := World.coherent_after (s := s) now nextId acts
  refine ⟨m, hm, fun d hd => ?_⟩
  have plain (b : Act) (hb : b ∈ acts) : b.Plain (zones d.user) d.user :=
    (uses b hb).plain (fun u goal e same => (events u goal e (same ▸ hb)).imp_right And.left) d.user
  have windows : s.minimum ≤ s.combine := by
    simp only [Settings.minimum, Settings.combine, Duration.ofMillis]
    omega
  have keeps := World.spaced_after (Settings.timed_of_validate valid combine) windows
    (regular d.user) now nextId plain inOrder
  exact ((World.of_memory keeps.days hm).2 d hd rfl).apart

/-- Two events of one device, too far apart for one activity, and between
them one of another device. -/
def Sample.visits : List Act :=
  [.merge (user .utc) goal (event 600),
    .merge (user .utc) goal { event 605 with device := some ⟨9⟩ },
    .merge (user .utc) goal (event 620)]

/-- The stored days that hold several activities of one device. -/
def Sample.recurring (w : World) : List Day :=
  match w.store with
  | .memory m => m.days.filter fun d =>
      d.activities.any fun a => d.activities.any fun b => decide (a ≠ b ∧ a.device = b.device)
  | .tables _ => []

/-- The two activities of one device in a stored day are apart. -/
theorem Sample.visits_apart : ∃ d ∈ Sample.recurring ((World.fresh .epoch 0).after {} Sample.visits),
    d.activities.Pairwise fun a b => a.device = b.device → a.ends < b.starts := by
  have uses : ∀ a ∈ Sample.visits, a.Uses fun _ => [.utc] := by
    simp [Sample.visits, Act.Uses, Sample.user]
  have events : ∀ user goal e, .merge user goal e ∈ Sample.visits →
      e.starts.Ordinary ∧ e.ends.Ordinary ∧ e.starts ≤ e.ends := by
    intro user goal e he
    simp only [Sample.visits, List.mem_cons, Act.merge.injEq, List.not_mem_nil, or_false] at he
    rcases he with ⟨-, -, rfl⟩ | ⟨-, -, rfl⟩ | ⟨-, -, rfl⟩ <;> decide +kernel
  have inOrder : Sample.visits.Pairwise Act.InOrder := by
    simp only [Sample.visits, List.pairwise_cons, List.mem_cons, List.not_mem_nil, or_false,
      forall_eq_or_imp, forall_eq, IsEmpty.forall_iff, implies_true, List.Pairwise.nil, and_true,
      Act.InOrder]
    decide +kernel
  obtain ⟨m, hm, apart⟩ := stored_activities_apart (fun _ => [.utc])
    (fun _ => by simpa using Zone.regular_utc) (s := {}) (by decide) (by decide) (by decide) .epoch 0
    uses events inOrder
  have recurs : Sample.recurring ((World.fresh .epoch 0).after {} Sample.visits) ≠ [] := by
    decide +kernel
  obtain ⟨d, hd⟩ := List.exists_mem_of_ne_nil _ recurs
  refine ⟨d, hd, apart d ?_⟩
  simp only [Sample.recurring, hm] at hd
  exact List.mem_of_mem_filter hd

end UsageDiary
