import UsageDiary.Proofs.Day.Used
import UsageDiary.Proofs.Merge.Atomic
import UsageDiary.Proofs.Merge.Stored

/-!
# An event that comes again

An event that was recorded and comes again finds the day it was recorded in
(`Recorded.place_again`), and that day absorbs it (`Applied.absorbs_again`):
the activity that starts last is the one that was created or extended for
the event, or the one that absorbed it before. So nothing more is recorded
(`Recorded.recordEvent_again`). The event has to start no earlier than the
last activity of its device then, as it would create another activity each
time otherwise.
-/

namespace UsageDiary

/-! ## The day absorbs the event -/

section Absorbed

variable {s : Settings} {d : Day} {opened : Bool} {e : UsageEvent} {next next' : Nat} {r : Merged}

/-- An activity that spans an event absorbs it. -/
theorem Settings.Timed.decide?_of_spanned (timed : s.Timed) {last : Activity}
    (hlast : d.last? e.device = some last) (after : last.starts ≤ e.starts) (starts : e.starts.Ordinary)
    (ends : last.ends.Ordinary) (spans : e.starts.nanos ≤ last.ends.nanos) (within : e.ends ≤ last.ends) :
    s.decide? d e = some (.absorb last) := by
  have positive := timed.combine_pos
  have near : ¬ s.combine < e.starts.nanos - last.ends.nanos := by omega
  unfold decide?
  simp only [hlast, timed.combine, Option.bind_eq_bind, Option.bind_some,
    Instant.since_of_ordinary starts ends]
  rw [if_neg (not_lt_of_ge after), if_neg near, if_neg (not_lt_of_ge within)]
  rfl

theorem UsageEvent.fit_congr {d d' : Day} (h : d'.ends = d.ends) (e : UsageEvent) : e.fit d' = e.fit d := by
  rw [fit_eq, fit_eq, h]

/-- The activity that was created for an event is the last one of its
device, unless the event starts before another one. -/
theorem Day.Takes.last?_add (takes : d.Takes e next) (timed : s.Timed) (tidy : d.Tidy s)
    (inOrder : ∀ last, d.last? e.device = some last → last.starts ≤ e.starts) {a : Activity}
    (shaped : s.Shaped d (e.fit d) a.starts a.ends) (device : a.device = e.device)
    (decided : s.Decided d (e.fit d) .create) :
    ({ d with activities := Day.insert a d.activities } : Day).last? e.device = some a := by
  have inserted := Day.find?_reverse_insert (p := (·.device == e.device)) a tidy.sorted
  unfold Day.last?
  rw [inserted, if_pos (by simp [device])]
  cases hlast : d.activities.reverse.find? (·.device == e.device) with
  | none => rfl
  | some last =>
    refine if_neg (not_lt_of_ge ?_)
    have fills := tidy.fills last (Day.mem_of_last? hlast)
    have dayEnds := takes.bounded.ordinary_ends
    have before := (Day.covers_def.mp takes.covers).2
    rw [Instant.lt_iff_nanos takes.starts dayEnds] at before
    have near := shaped.near
    rw [UsageEvent.starts_fit] at near
    have positive := timed.combine_pos
    cases decided with
    | first none =>
      rw [UsageEvent.fit_eq] at none
      cases none.symm.trans hlast
    | earlier hlast' before =>
      rw [UsageEvent.fit_eq] at hlast' before
      exact absurd (inOrder _ hlast') (not_le_of_gt before)
    | apart hlast' _ apart =>
      rw [UsageEvent.fit_eq] at hlast' apart
      cases hlast'.symm.trans hlast
      rw [Instant.le_iff_nanos fills.ordinary.1 shaped.ordinary_starts]
      rcases fills.lasts with lasts | ⟨-, full⟩
      · simp only at apart
        omega
      · rw [full] at apart
        simp only at apart
        omega

/-- A day that took an event in order absorbs it when it comes again, into
the activity that it is part of. -/
theorem Applied.absorbs_again (h : Applied s d opened (e.fit d) next r next') (timed : s.Timed)
    (takes : d.Takes e next) (tidy : d.Tidy s) (ordered : e.starts ≤ e.ends)
    (inOrder : ∀ last, d.last? e.device = some last → last.starts ≤ e.starts) :
    s.decide? r.day (e.fit r.day) = some (.absorb r.outcome.activity) := by
  rw [UsageEvent.fit_congr h.grows.ends]
  have starts : (e.fit d).starts = e.starts := UsageEvent.starts_fit e d
  have device : (e.fit d).device = e.device := by rw [UsageEvent.fit_eq]
  have fit := takes.ordinary_ends_fit
  have inDay : e.starts ≤ (e.fit d).ends := by
    rw [UsageEvent.ends_fit]
    exact le_min ordered (le_of_lt (Day.covers_def.mp takes.covers).2)
  rw [Instant.le_iff_nanos takes.starts fit] at inDay
  cases h with
  | @create starts' ends' _ decided stretched added =>
    have shaped := takes.shaped timed stretched
    obtain ⟨-, rfl⟩ := Day.add_eq added
    have last := takes.last?_add timed tidy inOrder
      (show s.Shaped d (e.fit d) (Activity.starts ⟨⟨next⟩, starts', ends', (e.fit d).device, (e.fit d).app⟩)
        _ from shaped) device (takes.decided timed tidy.ordinary decided)
    rw [← device] at last
    refine timed.decide?_of_spanned last ?_ (starts ▸ takes.starts) shaped.ordinary_ends ?_ ?_
    · show starts' ≤ (e.fit d).starts
      rw [Instant.le_iff_nanos shaped.ordinary_starts (starts ▸ takes.starts)]
      exact shaped.starts_le
    · rw [starts]
      exact Int.le_trans inDay shaped.le_ends
    · show (e.fit d).ends ≤ ends'
      rw [Instant.le_iff_nanos fit shaped.ordinary_ends]
      exact shaped.le_ends
  | extend decided extended =>
    obtain ⟨last, hlast, rfl, longer⟩ := Settings.lt_ends_of_extend decided
    obtain ⟨rfl, -, rfl⟩ := Day.extend_eq takes.labelled (Day.mem_of_last? hlast) longer extended
    refine timed.decide?_of_spanned (takes.labelled.last?_extend hlast _) ?_ (starts ▸ takes.starts)
      fit ?_ (le_refl _)
    · rw [starts]
      exact inOrder last (device ▸ hlast)
    · rw [starts]
      exact inDay
  | absorb decided => exact decided

end Absorbed

/-! ## The search finds the day -/

section Search

variable {m m' : MemoryStore} {user goal : Id} {t : Instant} {first : List Zone} {r : Day}

/-- A search that ended at a date finds the day that was stored there since
and covers the instant. By induction along the search. -/
theorem MemoryStore.seek_stored (covers : r.covers t = true)
    (stored : m'.findDay user goal r.date = some r)
    (others : ∀ {date}, date ≠ r.date → m'.findDay user goal date = m.findDay user goal date)
    {toTry unlisted : List Zone} {free? : Option (Zone × Date)} {p : Placement}
    (answer : m.seek user goal t toTry unlisted free? = .ok p) (date : p.date = r.date)
    (free : ∀ f, free? = some f → f.2 ≠ r.date) :
    m'.seek user goal t toTry unlisted free? = .ok ⟨.preceding (some r), r.zone, r.date⟩ := by
  fun_induction seek m user goal t toTry unlisted free? with
  | case1 unlisted zone found =>
    cases answer
    exact absurd date (free _ rfl)
  | case2 => cases answer
  | case3 => cases answer
  | case4 unlisted free? zone rest found shows d holds covered =>
    cases answer
    have same : found = r.date := (key_of_findDay holds).2.2.symm.trans date
    rw [seek, shows]
    simp only [same, stored, covers, if_true]
  | case5 unlisted free? zone rest found shows d holds covered hz ih =>
    rw [seek, shows]
    by_cases same : found = r.date
    · simp only [same, stored, covers, if_true]
    · simp only [others same, holds, covered]
      exact (if_pos hz).trans (ih answer free)
  | case6 unlisted free? zone rest found shows d holds covered hz ih =>
    rw [seek, shows]
    by_cases same : found = r.date
    · simp only [same, stored, covers, if_true]
    · simp only [others same, holds, covered]
      exact (if_neg hz).trans (ih answer free)
  | case7 unlisted free? zone rest found shows holds ih =>
    rw [seek, shows]
    by_cases same : found = r.date
    · simp only [same, stored, covers, if_true]
    · simp only [others same, holds]
      refine ih answer fun f hf => ?_
      rcases Option.or_eq_some_iff.mp hf with hf | ⟨-, hf⟩
      · exact free f hf
      · cases hf
        exact same

/-- Saving a day whose zone is tried or listed anyway adds none to list. -/
theorem MemoryStore.unlisted_saveDay
    (kept : ∀ c, m.findDay r.user r.goal r.date = some c → r.zone = c.zone)
    (tried : m.findDay r.user r.goal r.date = none → r.zone ∈ first ∨ ∃ c ∈ m.days, c.zone = r.zone) :
    (Store.zones (.memory (m.saveDay r))).filter (· ∉ first) =
      (Store.zones (.memory m)).filter (· ∉ first) := by
  unfold Store.zones saveDay
  cases found : m.findDay r.user r.goal r.date with
  | some c => simp only [map_put_of_find? found (kept c found)]
  | none =>
    simp only [put_of_find?_eq_none found, List.map_append, List.map_singleton]
    rw [List.eraseDups_append, List.filter_append]
    have none : ([r.zone].removeAll (m.days.map (·.zone))).eraseDups.filter (· ∉ first) = [] := by
      refine List.filter_eq_nil_iff.mpr fun z hz => ?_
      simp only [List.mem_eraseDups, List.removeAll, List.mem_filter, List.mem_singleton,
        Bool.not_eq_true', List.elem_eq_mem, decide_eq_false_iff_not, List.mem_map] at hz
      obtain ⟨rfl, unlisted⟩ := hz
      simpa using (tried found).resolve_right unlisted
    rw [none, List.append_nil]

end Search

/-! ## Nothing more is recorded -/

section Place

variable {m : MemoryStore} {user : User} {goal : Id} {t : Instant} {cached : Option Day} {p : Placement}

/-- An instant that is placed has a date in the user's zone. -/
theorem MemoryStore.dated_of_place (h : m.place user goal t cached = .ok p) :
    ∃ date, user.zone.localDate? t = some date := by
  cases shows : user.zone.localDate? t with
  | none =>
    unfold place at h
    rw [shows] at h
    cases h
  | some date => exact ⟨date, rfl⟩

/-- An instant before the cached day is placed by searching. -/
theorem MemoryStore.place_eq_search {date : Date} (shows : user.zone.localDate? t = some date) {c : Day}
    (before : t < c.starts) (beforeEnd : t < c.ends) : m.place user goal t (some c) =
      m.search user.id goal t (Work.firstZones user.zone c.zone) := by
  have covers : ¬ c.covers t = true := fun covers => not_lt_of_ge (Day.covers_def.mp covers).1 before
  unfold place
  rw [shows]
  simp only
  rw [if_neg covers, if_neg (not_le_of_gt beforeEnd)]

end Place

namespace Recorded

variable {s : Settings} {user : User} {goal : Id} {e : UsageEvent} {v v' : Scope} {p : Placement}
  {d : Day} {opened : Bool} {next : Nat} {r : Merged}

/-- The lookup that finds the recorded day. -/
def lookupAgain (p : Placement) (r : Merged) : Lookup :=
  if p.lookup.isLate then .preceding (some r.day) else .current r.day

/-- Where a search ended that the event was placed by: at the date of its
day, whose zone was tried or is that of the day it was before. -/
theorem sought_date (h : Recorded s user goal e v p d opened next r v') {first : List Zone}
    (sought : Sought v.store user.id goal e.starts first p) : p.date = d.date ∧
      (∀ c, v.store.findDay user.id goal d.date = some c → d.zone = c.zone) ∧
      (v.store.findDay user.id goal d.date = none →
        d.zone ∈ first ∨ ∃ c ∈ v.store.days, c.zone = d.zone) := by
  cases sought with
  | found _ _ holds =>
    cases h.taken with
    | opened none => cases none
    | kept day =>
      cases day
      refine ⟨rfl, fun c hc => ?_, fun none => ?_⟩
      · cases holds.symm.trans hc
        rfl
      · cases holds.symm.trans none
  | free tries _ holds =>
    cases h.taken with
    | kept day => cases day
    | opened _ opens =>
      rw [(Day.create_eq_ok opens).2.2]
      refine ⟨rfl, fun c hc => ?_, fun _ => ?_⟩
      · cases holds.symm.trans hc
      · cases tries with
        | first h => exact .inl h
        | met _ _ holds => exact .inr ⟨_, MemoryStore.mem_of_findDay holds, rfl⟩

theorem search_again (h : Recorded s user goal e v p d opened next r v')
    (coherent : v.slot.Coherent v.store user.id goal) (covers : r.day.covers e.starts = true)
    {first : List Zone} (answer : v.store.search user.id goal e.starts first = .ok p) :
    v'.store.search user.id goal e.starts first =
      .ok ⟨.preceding (some r.day), r.day.zone, r.day.date⟩ := by
  have grows := h.applied.grows
  obtain ⟨huser, hgoal⟩ := h.key coherent
  have sought := v.store.search_ok user.id goal e.starts first
  rw [answer] at sought
  obtain ⟨date, kept, tried⟩ := h.sought_date sought
  rw [← huser, ← hgoal, ← grows.user, ← grows.goal, ← grows.date, ← grows.zone] at kept tried
  have unlisted : (Store.zones (.memory v'.store)).filter (· ∉ first) =
      (Store.zones (.memory v.store)).filter (· ∉ first) := by
    rw [h.store]
    split
    · exact MemoryStore.unlisted_saveDay kept tried
    · rfl
  unfold MemoryStore.search
  rw [unlisted]
  refine MemoryStore.seek_stored covers ?_ (fun other => ?_) answer (date.trans grows.date.symm)
    fun f none => by cases none
  · rw [grows.date]
    exact h.findDay_self coherent
  · exact h.findDay_of_ne coherent fun same => other (same.2.2.trans grows.date.symm)

theorem place_again (h : Recorded s user goal e v p d opened next r v')
    (coherent : v.slot.Coherent v.store user.id goal) (covers : d.covers e.starts = true)
    (answer : v.store.place user goal e.starts v.slot.day = .ok p) :
    v'.store.place user goal e.starts v'.slot.day = .ok ⟨lookupAgain p r, r.day.zone, r.day.date⟩ := by
  have grows := h.applied.grows
  have covers' : r.day.covers e.starts = true := by
    rw [Day.covers_def] at covers ⊢
    rwa [grows.starts, grows.ends]
  obtain ⟨date, shows⟩ := MemoryStore.dated_of_place answer
  unfold lookupAgain
  rw [h.slot]
  split
  · next late =>
    obtain ⟨c, hc, before, beforeEnd⟩ := h.placed.isLate_iff.mp late
    rw [hc] at answer ⊢
    rw [MemoryStore.place_eq_search shows before beforeEnd] at answer ⊢
    exact h.search_again coherent covers' answer
  · unfold MemoryStore.place
    rw [shows]
    exact if_pos covers'

/-- An event in order that comes again and is placed in the day that it was
recorded in is absorbed, and leaves everything as it was. -/
theorem recordEvent_again (h : Recorded s user goal e v p d opened next r v') (timed : s.Timed)
    (takes : d.Takes e next) (tidy : d.Tidy s) (ordered : e.starts ≤ e.ends)
    (inOrder : ∀ last, d.last? e.device = some last → last.starts ≤ e.starts) {u : Scope}
    {base w : World} (at' : base.At user.id goal u w) (calm : base.outages = [])
    (placed : u.store.place user goal e.starts u.slot.day =
      .ok ⟨lookupAgain p r, r.day.zone, r.day.date⟩) :
    ∃ w', (Work.recordEvent s u.slot user goal e).exec w =
        (.ok (⟨lookupAgain p r, r.day.zone, r.day.date⟩, ⟨.absorbed r.outcome.activity, r.day⟩), w') ∧
      base.At user.id goal u w' := by
  have absorbs := h.applied.absorbs_again timed takes tidy ordered inOrder
  have taken : (lookupAgain p r).day? = some r.day := by
    unfold lookupAgain
    split <;> rfl
  have ends : Work.WP (Work.recordEvent s u.slot user goal e) w
      (fun recorded w' => recorded =
          (⟨lookupAgain p r, r.day.zone, r.day.date⟩, ⟨.absorbed r.outcome.activity, r.day⟩) ∧
        base.At user.id goal u w') fun stop _ => base.Failing stop := by
    unfold Work.recordEvent
    refine (Work.place_answers at').bind (fun p' w₁ ⟨answer', h₁⟩ => ?_) fun stop w₁ ⟨why, h₁⟩ => ?_
    · cases placed.symm.trans answer'
      refine (Work.report_ok _ h₁).bind (fun _ w₂ h₂ => ?_) fun _ _ => False.elim
      refine (Work.takeDay_ok _ h₂).bind (fun (d', opened') w₃ ⟨_, taken', h₃⟩ => ?_)
        fun stop w₃ ⟨⟨_, hnone, _⟩, _⟩ => by cases taken.symm.trans hnone
      cases taken' with
      | opened none => cases taken.symm.trans none
      | kept same =>
        cases taken.symm.trans same
        refine Work.WP.ite_bind (base.At user.id goal _) (fun _ => Work.report_ok _ h₃) (fun _ => h₃)
          (fun w₄ h₄ => ?_) fun _ _ => False.elim
        refine (Work.apply_ok s r.day false (e.fit r.day) h₄).bind
          (fun r' w₅ ⟨_, applied, h₅⟩ => ?_) fun stop w₅ ⟨why, _⟩ => ?_
        · cases applied with
          | create decided => cases absorbs.symm.trans decided
          | extend decided => cases absorbs.symm.trans decided
          | absorb decided =>
            cases absorbs.symm.trans decided
            exact Work.WP.pure ⟨rfl, h₅⟩
        · cases why with
          | undecided none => cases absorbs.symm.trans none
          | unstretched decided => cases absorbs.symm.trans decided
          | unadded decided => cases absorbs.symm.trans decided
          | unextended decided => cases absorbs.symm.trans decided
    · rcases why with failing | error
      · exact failing
      · cases placed.symm.trans error
  obtain ⟨_, w', exec, rfl, h'⟩ := ends.exists_ok fun _ _ failing => failing.1 calm
  exact ⟨w', exec, h'⟩

end Recorded
end UsageDiary
