import UsageDiary.Merge.Basic
import UsageDiary.Proofs.Day.Growth
import UsageDiary.Proofs.Merge.Placement

/-!
# How an event is recorded

The day that an event goes to is the one of its placement, or is opened for
it (`Taken`); the event then creates an activity of that day, extends one or
is absorbed (`Applied`). Either way the day grows (`Applied.grows`), and a
day that was opened does not stay empty (`Applied.isPersisted_of_nil`).

An event that lies in its day is never refused, as long as lengths of time
and instants exist that the settings ask for (`not_unapplied`).
-/

namespace UsageDiary

/-- The day of a placement, if it has one. -/
def Lookup.day? : Lookup → Option Day
  | current d => some d
  | preceding d? => d?
  | empty | following => none

/-- The instant lies before the cached day. -/
def Lookup.isLate : Lookup → Bool
  | preceding _ => true
  | _ => false

/-- The day that takes an event, whether it was opened for it, and the next
id after that. -/
inductive Taken (user goal : Id) (p : Placement) (next : Nat) : Day → Bool → Nat → Prop where
  | kept {d : Day} (h : p.lookup.day? = some d) : Taken user goal p next d false next
  | opened {d : Day} (h : p.lookup.day? = none)
      (opens : Day.create ⟨next⟩ user goal p.zone p.date = .ok d) :
      Taken user goal p next d true (next + 1)

section Applied

variable (s : Settings) (d : Day) (opened : Bool) (e : UsageEvent) (next : Nat)

/-- What an event does to its day, and the next id after that. -/
inductive Applied : Merged → Nat → Prop where
  | create {starts ends : Instant} {d' : Day} (decided : s.decide? d e = some .create)
      (stretched : s.stretch? d e = some (starts, ends))
      (added : d.add ⟨⟨next⟩, starts, ends, e.device, e.app⟩ = .ok d') :
      Applied ⟨.created ⟨⟨next⟩, starts, ends, e.device, e.app⟩ opened, d'⟩ (next + 1)
  | extend {id : Id} {a : Activity} {d' : Day} (decided : s.decide? d e = some (.extend id))
      (extended : d.extend id e.ends = .ok (d', a)) : Applied ⟨.extended a, d'⟩ next
  | absorb {a : Activity} (decided : s.decide? d e = some (.absorb a)) :
      Applied ⟨.absorbed a, d⟩ next

/-- Why an event does nothing to its day. -/
inductive Unapplied : Stop → Prop where
  | undecided (h : s.decide? d e = none) : Unapplied .outOfRange
  | unstretched (decided : s.decide? d e = some .create) (h : s.stretch? d e = none) :
      Unapplied .outOfRange
  | unadded {starts ends : Instant} {broken : Violation} (decided : s.decide? d e = some .create)
      (stretched : s.stretch? d e = some (starts, ends))
      (h : d.add ⟨⟨next⟩, starts, ends, e.device, e.app⟩ = .error broken) :
      Unapplied (.failed (.violation broken))
  | unextended {id : Id} {broken : Violation} (decided : s.decide? d e = some (.extend id))
      (h : d.extend id e.ends = .error broken) : Unapplied (.failed (.violation broken))

end Applied

namespace Work

variable {base w : World} {user goal user' goal' : Id} {v : Scope}

theorem takeDay_ok (p : Placement) (h : base.At user' goal' v w) :
    WP (takeDay user goal p) w
      (fun taken w' => ∃ next, Taken user goal p v.nextId taken.1 taken.2 next ∧
        base.At user' goal' { v with nextId := next } w')
      fun stop w' => (∃ z, p.lookup.day? = none ∧
          Day.create ⟨v.nextId⟩ user goal p.zone p.date = .error z ∧ stop = .failed (.zone z)) ∧
        base.At user' goal' { v with nextId := v.nextId + 1 } w' := by
  have opens (hnone : p.lookup.day? = none) : WP
      (do
        let d ← ofZone (Day.create (← freshId) user goal p.zone p.date)
        return (d, true)) w
      (fun taken w' => ∃ next, Taken user goal p v.nextId taken.1 taken.2 next ∧
        base.At user' goal' { v with nextId := next } w')
      fun stop w' => (∃ z, p.lookup.day? = none ∧
          Day.create ⟨v.nextId⟩ user goal p.zone p.date = .error z ∧ stop = .failed (.zone z)) ∧
        base.At user' goal' { v with nextId := v.nextId + 1 } w' := by
    refine (freshId_ok h).bind (fun id w₁ ⟨hid, h₁⟩ => ?_) fun _ _ => False.elim
    rw [hid]
    refine (ofZone_ok _ w₁).bind (fun d w₂ ⟨hd, same⟩ => ?_)
      fun stop w₂ ⟨⟨z, hz, hstop⟩, same⟩ => ⟨⟨z, hnone, hz, hstop⟩, same ▸ h₁⟩
    exact WP.pure ⟨v.nextId + 1, .opened hnone hd, same ▸ h₁⟩
  obtain ⟨lookup, zone, date⟩ := p
  cases lookup with
  | empty => exact opens rfl
  | following => exact opens rfl
  | current d => exact WP.pure ⟨v.nextId, .kept rfl, h⟩
  | preceding d? =>
    cases d? with
    | none => exact opens rfl
    | some d => exact WP.pure ⟨v.nextId, .kept rfl, h⟩

theorem apply_ok (s : Settings) (d : Day) (opened : Bool) (e : UsageEvent)
    (h : base.At user' goal' v w) :
    WP (apply s d opened e) w
      (fun r w' => ∃ next, Applied s d opened e v.nextId r next ∧
        base.At user' goal' { v with nextId := next } w')
      fun stop w' => Unapplied s d e v.nextId stop ∧
        ∃ next, v.nextId ≤ next ∧ base.At user' goal' { v with nextId := next } w' := by
  unfold apply
  refine (inRange_ok _ w).bind (fun decision w₁ ⟨decided, same⟩ => ?_)
    fun stop w₁ ⟨⟨hnone, hstop⟩, same⟩ =>
      ⟨hstop ▸ .undecided hnone, v.nextId, Nat.le_refl _, same ▸ h⟩
  subst same
  cases decision with
  | create =>
    refine (inRange_ok _ w₁).bind (fun bounds w₂ ⟨stretched, same⟩ => ?_)
      fun stop w₂ ⟨⟨hnone, hstop⟩, same⟩ =>
        ⟨hstop ▸ .unstretched decided hnone, v.nextId, Nat.le_refl _, same ▸ h⟩
    subst same
    refine (freshId_ok h).bind (fun id w₃ ⟨hid, h₃⟩ => ?_) fun _ _ => False.elim
    rw [hid]
    refine (respecting_ok _ w₃).bind (fun d' w₄ ⟨added, same⟩ => ?_)
      fun stop w₄ ⟨⟨broken, hadd, hstop⟩, logged⟩ =>
        ⟨hstop ▸ .unadded decided stretched hadd, v.nextId + 1, Nat.le_succ _, h₃.logged logged⟩
    exact WP.pure ⟨v.nextId + 1, .create decided stretched added, same ▸ h₃⟩
  | extend id =>
    refine (respecting_ok _ w₁).bind (fun r w₂ ⟨extended, same⟩ => ?_)
      fun stop w₂ ⟨⟨broken, hextend, hstop⟩, logged⟩ =>
        ⟨hstop ▸ .unextended decided hextend, v.nextId, Nat.le_refl _, h.logged logged⟩
    exact WP.pure ⟨v.nextId, .extend decided extended, same ▸ h⟩
  | absorb a => exact WP.pure ⟨v.nextId, .absorb decided, h⟩

end Work

/-! ## The day afterwards -/

section After

variable {s : Settings} {d : Day} {opened : Bool} {e : UsageEvent} {next next' : Nat} {r : Merged}

theorem Taken.le {user goal : Id} {p : Placement} (h : Taken user goal p next d opened next') :
    next ≤ next' := by
  cases h with
  | kept => exact Nat.le_refl next
  | opened => exact Nat.le_succ next

theorem Applied.le (h : Applied s d opened e next r next') : next ≤ next' := by
  cases h with
  | create => exact Nat.le_succ next
  | extend => exact Nat.le_refl next
  | absorb => exact Nat.le_refl next

theorem Applied.grows (h : Applied s d opened e next r next') : d.Grows r.day := by
  cases h with
  | create _ _ added => exact Day.grows_of_add added
  | extend _ extended => exact Day.grows_of_extend extended
  | absorb _ => exact .refl d

/-- A day that is not saved is the one that was taken. -/
theorem Applied.day_of_not_persisted (h : Applied s d opened e next r next')
    (hr : r.outcome.isPersisted = false) : r.day = d := by
  cases h with
  | create => cases hr
  | extend => cases hr
  | absorb => rfl

theorem Settings.decide?_of_nil (s : Settings) {d : Day} (h : d.activities = []) (e : UsageEvent) :
    s.decide? d e = some .create := by
  have last : d.last? e.device = none := by simp [Day.last?, h]
  simp [decide?, last]

/-- An event creates an activity in a day without any. -/
theorem Applied.created_of_nil (h : Applied s d opened e next r next') (hd : d.activities = []) :
    ∃ a, r.outcome = .created a opened := by
  have created := s.decide?_of_nil hd e
  cases h with
  | create => exact ⟨_, rfl⟩
  | extend decided =>
    rw [created] at decided
    cases decided
  | absorb decided =>
    rw [created] at decided
    cases decided

theorem Applied.isPersisted_of_nil (h : Applied s d opened e next r next')
    (hd : d.activities = []) : r.outcome.isPersisted = true := by
  obtain ⟨a, ha⟩ := h.created_of_nil hd
  rw [ha]
  rfl

theorem Applied.opened_of_created (h : Applied s d opened e next r next') {a : Activity}
    (hr : r.outcome = .created a true) : opened = true := by
  cases h with
  | create => cases hr; rfl
  | extend => cases hr
  | absorb => cases hr

theorem Taken.nil_of_opened {user goal : Id} {p : Placement}
    (h : Taken user goal p next d true next') : d.activities = [] := by
  cases h with
  | opened _ opens => rw [(Day.create_eq_ok opens).2.2]

end After

/-! ## Why nothing is refused -/

namespace UsageEvent

variable (e : UsageEvent) (d : Day)

theorem fit_eq : e.fit d = { e with ends := min e.ends d.ends } := by
  unfold fit
  split
  · next h => rw [min_eq_left h]
  · next h => rw [min_eq_right (le_of_not_ge h)]

@[simp] theorem starts_fit : (e.fit d).starts = e.starts := by rw [fit_eq]

theorem ends_fit : (e.fit d).ends = min e.ends d.ends := by rw [fit_eq]

end UsageEvent

/-- The settings name lengths of time, and the least length of an activity
is not negative. -/
structure Settings.Measured (s : Settings) : Prop where
  combine : ∃ length, s.combineInterval? = some length
  skip : ∃ length, s.skipWindow? = some length
  minimum : ∃ length : Int, s.minimumDuration? = some length ∧ 0 ≤ length

/-- Settings that pass the checks do, unless the window for combining is too
long for 63 bits. -/
theorem Settings.measured_of_validate {s : Settings} (h : s.validate = .ok ())
    (combine : s.combineMillis < 9223372036854775808) : s.Measured := by
  have skip := skip_lt_combine h
  have minimum : s.minimumMillis < dayMillis := by
    unfold validate at h
    repeat' split at h
    all_goals first | omega | cases h
  unfold dayMillis at minimum
  refine ⟨⟨_, if_pos combine⟩, ⟨_, if_pos (by omega)⟩, _, if_pos (by omega), ?_⟩
  unfold Duration.ofMillis
  omega

/-- An event lies in a day: it starts in the day and ends at the day's end
at most. The instants exist that a new activity for it may be moved to. -/
structure UsageEvent.Within (s : Settings) (e : UsageEvent) (d : Day) : Prop where
  covers : d.covers e.starts = true
  ordered : e.starts ≤ e.ends
  ends : e.ends ≤ d.ends
  ordinary : d.ends.Ordinary
  forward : ∀ {length}, s.minimumDuration? = some length → ∃ t, e.starts.shift? length = some t
  back : ∀ {length}, s.minimumDuration? = some length → ∃ t, d.ends.shift? (-length) = some t

section Refusals

variable {s : Settings} {d : Day} {e : UsageEvent}

theorem Day.mem_of_last? {device : Option Id} {a : Activity} (h : d.last? device = some a) :
    a ∈ d.activities :=
  List.mem_reverse.mp (List.mem_of_find?_eq_some h)

theorem Day.device_of_last? {device : Option Id} {a : Activity} (h : d.last? device = some a) :
    a.device = device := by
  simpa using List.find?_some h

/-- What is decided of a day whose last activity of the device is known. -/
theorem Settings.decide?_cases {decision : Decision} (h : s.decide? d e = some decision) :
    decision = .create ∨ ∃ last, d.last? e.device = some last ∧
      (decision = .extend last.id ∧ last.ends < e.ends ∨ decision = .absorb last) := by
  unfold decide? at h
  cases hlast : d.last? e.device with
  | none =>
    rw [hlast] at h
    cases h
    exact .inl rfl
  | some last =>
    simp only [hlast] at h
    split at h
    · cases h
      exact .inl rfl
    · obtain ⟨combine, -, h⟩ := Option.bind_eq_some_iff.mp h
      split at h
      · cases h
        exact .inl rfl
      · split at h
        · next longer =>
          obtain ⟨skip, -, h⟩ := Option.bind_eq_some_iff.mp h
          split at h
          · cases h
            exact .inr ⟨last, rfl, .inl ⟨rfl, longer⟩⟩
          · cases h
            exact .inr ⟨last, rfl, .inr rfl⟩
        · cases h
          exact .inr ⟨last, rfl, .inr rfl⟩

/-- An activity is extended to a later end. -/
theorem Settings.lt_ends_of_extend {id : Id} (h : s.decide? d e = some (.extend id)) :
    ∃ last, d.last? e.device = some last ∧ id = last.id ∧ last.ends < e.ends := by
  rcases decide?_cases h with hd | ⟨last, hlast, ⟨hd, longer⟩ | hd⟩
  · cases hd
  · exact ⟨last, hlast, Decision.extend.inj hd, longer⟩
  · cases hd

theorem Settings.decide?_ne_none (measured : s.Measured) (d : Day) (e : UsageEvent) :
    s.decide? d e ≠ none := by
  obtain ⟨combine, hcombine⟩ := measured.combine
  obtain ⟨skip, hskip⟩ := measured.skip
  unfold decide?
  cases d.last? e.device with
  | none => exact Option.some_ne_none _
  | some last =>
    simp only [hcombine, hskip, Option.bind_eq_bind, Option.bind_some]
    repeat' split
    all_goals exact Option.some_ne_none _

/-- The bounds of a new activity lie in the day. -/
theorem Settings.contains_of_stretch? (measured : s.Measured) (within : e.Within s d)
    {starts ends : Instant} (h : s.stretch? d e = some (starts, ends)) :
    d.contains starts ends = true := by
  obtain ⟨minimum, hminimum, nonneg⟩ := measured.minimum
  obtain ⟨hstarts, hends⟩ := Day.covers_def.mp within.covers
  have contains {a b : Instant} (hab : a ≤ b) (ha : d.starts ≤ a) (hb : b ≤ d.ends) :
      d.contains a b = true := by simp [Day.contains, hab, ha, hb]
  unfold stretch? at h
  simp only [hminimum, Option.bind_eq_bind, Option.bind_some] at h
  split at h
  · obtain ⟨later, hlater, h⟩ := Option.bind_eq_some_iff.mp h
    split at h
    -- Moved back, the activity ends with the day and starts no earlier than it.
    · obtain ⟨earlier, hearlier, h⟩ := Option.bind_eq_some_iff.mp h
      cases h
      have hle : earlier ≤ d.ends := Instant.ge_of_shift?_neg within.ordinary hearlier nonneg
      have hday : d.starts ≤ d.ends := le_trans hstarts (le_of_lt hends)
      exact contains (max_le hle hday) (le_max_right _ _) (le_refl _)
    · next hfits =>
      cases h
      exact contains (Instant.le_of_shift? hlater nonneg) hstarts (le_of_not_gt hfits)
  · cases h
    exact contains within.ordered hstarts within.ends

theorem Settings.stretch?_ne_none (measured : s.Measured) (within : e.Within s d) :
    s.stretch? d e ≠ none := by
  obtain ⟨minimum, hminimum, -⟩ := measured.minimum
  obtain ⟨later, hlater⟩ := within.forward hminimum
  obtain ⟨earlier, hearlier⟩ := within.back hminimum
  unfold stretch?
  simp only [hminimum, hlater, hearlier, Option.bind_eq_bind, Option.bind_some]
  repeat' split
  all_goals exact Option.some_ne_none _

/-- An event that lies in its day is not refused. -/
theorem not_unapplied (measured : s.Measured) (within : e.Within s d) {next : Nat} {stop : Stop} :
    ¬ Unapplied s d e next stop := by
  intro h
  cases h with
  | undecided h => exact s.decide?_ne_none measured d e h
  | unstretched _ h => exact Settings.stretch?_ne_none measured within h
  | unadded _ stretched h =>
    simp only [Day.add, Settings.contains_of_stretch? measured within stretched, if_true] at h
    cases h
  | unextended decided h =>
    rcases Settings.decide?_cases decided with hd | ⟨last, hlast, ⟨hd, -⟩ | hd⟩
    · cases hd
    · cases hd
      obtain ⟨a, ha⟩ : ∃ a, d.activities.find? (·.id == last.id) = some a :=
        Option.isSome_iff_exists.mp (List.find?_isSome.mpr ⟨last, Day.mem_of_last? hlast, by simp⟩)
      simp only [Day.extend, ha, not_lt_of_ge within.ends, if_false] at h
      cases h
    · cases hd

end Refusals
end UsageDiary
