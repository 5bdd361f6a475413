import UsageDiary.Merge.Lookup
import UsageDiary.Proofs.Store.Memory
import UsageDiary.Proofs.Work
import UsageDiary.Proofs.Zone.Regular

/-!
# Where an event is placed

What a lookup ends in, for a store in memory. A search tries the user's
zone, the cached day's zone and the zone of every day it meets that does
not cover the instant (`Tries`). It ends in a stored day that covers the
instant or in a free date (`Sought`), and finds nothing exactly if each of
these zones shows a date whose day does not cover the instant
(`MemoryStore.search_ok`, `Sought.not_blocked`).

`MemoryStore.place` puts this beside the cases of an empty slot, of a cached
day that covers the instant, and of an instant after it (`Placed`). It is
what `place` answers unless a store call fails (`Work.place_answers`).
-/

namespace UsageDiary

section Search

variable (m : MemoryStore) (user goal : Id) (t : Instant) (first : List Zone)

/-- The zones that a search for the day of an instant tries: the first
ones, and the zone of every day met that does not cover the instant. -/
inductive Tries : Zone → Prop where
  | first {z : Zone} (h : z ∈ first) : Tries z
  | met {z : Zone} {date : Date} {d : Day} (h : Tries z) (shows : z.localDate? t = some date)
      (holds : m.findDay user goal date = some d) (covers : d.covers t = false) : Tries d.zone

/-- Each zone to try shows a date whose day does not cover the instant. -/
def Blocked : Prop :=
  ∀ {z : Zone}, Tries m user goal t first z →
    ∃ date d, z.localDate? t = some date ∧ m.findDay user goal date = some d ∧ d.covers t = false

/-- What a search ends in: a stored day that covers the instant, or the
date that a zone shows, which is free. It gives a free date only if none of
the zones to try shows the date of a day that covers the instant. -/
inductive Sought : Placement → Prop where
  | found {z : Zone} {d : Day} (tries : Tries m user goal t first z)
      (shows : z.localDate? t = some d.date) (holds : m.findDay user goal d.date = some d)
      (covers : d.covers t = true) : Sought ⟨.preceding (some d), d.zone, d.date⟩
  | free {z : Zone} {date : Date} (tries : Tries m user goal t first z)
      (shows : z.localDate? t = some date) (holds : m.findDay user goal date = none)
      (dated : ∀ z ∈ first, ∃ date, z.localDate? t = some date)
      (passed : ∀ {z' : Zone} {d : Day}, Tries m user goal t first z' →
        z'.localDate? t = some d.date → m.findDay user goal d.date = some d → d.covers t = false) :
      Sought ⟨.preceding none, z, date⟩

/-- Why a search finds nothing: no day can take the instant, or a zone has
no date for it. -/
inductive Lost : Stop → Prop where
  | blocked (h : Blocked m user goal t first) : Lost (.failed (.violation (.noDayFor t)))
  | undated {z : Zone} (tries : Tries m user goal t first z) (h : z.localDate? t = none) :
      Lost .outOfRange

end Search

section Search

variable {m : MemoryStore} {user goal : Id} {t : Instant} {first : List Zone}

/-- A search that ends was not blocked. -/
theorem Sought.not_blocked {p : Placement} (h : Sought m user goal t first p) :
    ¬ Blocked m user goal t first := by
  intro blocked
  cases h with
  | found tries shows holds covers =>
    obtain ⟨date, d, hdate, hd, hcovers⟩ := blocked tries
    rw [shows, Option.some.injEq] at hdate
    rw [← hdate, holds, Option.some.injEq] at hd
    rw [hd, hcovers] at covers
    cases covers
  | free tries shows holds dated =>
    obtain ⟨date, d, hdate, hd, -⟩ := blocked tries
    rw [shows, Option.some.injEq] at hdate
    rw [← hdate, holds] at hd
    cases hd

/-- A search is under way: the zones tried and to try are among those it
tries in the end, and every day met in a tried zone was passed over, its
zone put among them. The free date, once there is one, is shown by a zone
that was tried. -/
structure Searching (m : MemoryStore) (user goal : Id) (t : Instant) (first : List Zone)
    (tried toTry unlisted : List Zone) (free? : Option (Zone × Date)) : Prop where
  all : ∀ z ∈ first, z ∈ tried ∨ z ∈ toTry
  tries : ∀ z, z ∈ tried ∨ z ∈ toTry → Tries m user goal t first z
  listed : ∀ d ∈ m.days, d.zone ∈ unlisted ∨ d.zone ∈ tried ∨ d.zone ∈ toTry
  dated : ∀ z ∈ tried, ∃ date, z.localDate? t = some date
  passed : ∀ z ∈ tried, ∀ {date d}, z.localDate? t = some date →
    m.findDay user goal date = some d → d.covers t = false ∧ (d.zone ∈ tried ∨ d.zone ∈ toTry)
  free : ∀ {z date}, free? = some (z, date) →
    z ∈ tried ∧ z.localDate? t = some date ∧ m.findDay user goal date = none
  full : free? = none → ∀ z ∈ tried, ∀ {date}, z.localDate? t = some date →
    m.findDay user goal date ≠ none

namespace Searching

variable {tried rest unlisted : List Zone} {free? : Option (Zone × Date)} {zone : Zone}
  {date : Date} {d : Day}

/-- A search starts with the first zones to try and the others unlisted. -/
theorem start (m : MemoryStore) (user goal : Id) (t : Instant) (first : List Zone) :
    Searching m user goal t first [] first
      ((Store.zones (.memory m)).filter (· ∉ first)) none where
  all z h := .inr h
  tries z h := .first (by simpa using h)
  listed d h := by
    by_cases hz : d.zone ∈ first
    · exact .inr (.inr hz)
    · left
      simp only [Store.zones, List.mem_filter, List.mem_eraseDups, List.mem_map]
      exact ⟨⟨d, h, rfl⟩, by simpa using hz⟩
  dated := by simp
  passed := by simp
  free h := by cases h
  full := by simp

/-- A search goes on from a zone that was tried: it keeps those it had to
try, and adds the zone of a day that was met. -/
theorem advance {toTry unlisted' : List Zone} {free' : Option (Zone × Date)}
    (h : Searching m user goal t first tried (zone :: rest) unlisted free?)
    (shows : zone.localDate? t = some date) (kept : ∀ z ∈ rest, z ∈ toTry)
    (added : ∀ z ∈ toTry, z ∈ rest ∨ Tries m user goal t first z)
    (listed : ∀ z ∈ unlisted, z ∈ unlisted' ∨ z ∈ toTry)
    (passed : ∀ d, m.findDay user goal date = some d →
      d.covers t = false ∧ (d.zone ∈ zone :: tried ∨ d.zone ∈ toTry))
    (free : free' = free? ∧ m.findDay user goal date ≠ none ∨
      free' = free?.or (some (zone, date)) ∧ m.findDay user goal date = none) :
    Searching m user goal t first (zone :: tried) toTry unlisted' free' := by
  have old {z : Zone} (hz : z ∈ tried ∨ z ∈ zone :: rest) : z ∈ zone :: tried ∨ z ∈ toTry := by
    rcases hz with hz | hz
    · exact .inl (List.mem_cons_of_mem _ hz)
    · rcases List.mem_cons.mp hz with rfl | hz
      · exact .inl List.mem_cons_self
      · exact .inr (kept z hz)
  refine ⟨fun z hz => old (h.all z hz), fun z hz => ?_, fun e he => ?_, fun z hz => ?_,
    fun z hz date' d' hdate hd => ?_, fun {z date'} hfree => ?_, fun hnone z hz date' hdate => ?_⟩
  · rcases hz with hz | hz
    · rcases List.mem_cons.mp hz with rfl | hz
      · exact h.tries z (.inr List.mem_cons_self)
      · exact h.tries z (.inl hz)
    · rcases added z hz with hz | hz
      · exact h.tries z (.inr (List.mem_cons_of_mem _ hz))
      · exact hz
  · rcases h.listed e he with hz | hz
    · exact (listed _ hz).imp id .inr
    · exact .inr (old hz)
  · rcases List.mem_cons.mp hz with rfl | hz
    · exact ⟨date, shows⟩
    · exact h.dated z hz
  · rcases List.mem_cons.mp hz with rfl | hz
    · rw [shows, Option.some.injEq] at hdate
      exact passed d' (hdate ▸ hd)
    · exact (h.passed z hz hdate hd).imp id old
  · have hold (hfree : free? = some (z, date')) := h.free hfree
    rcases free with ⟨rfl, -⟩ | ⟨rfl, holds⟩
    · exact (hold hfree).imp (List.mem_cons_of_mem _) id
    · rcases Option.or_eq_some_iff.mp hfree with hfree | ⟨-, hfree⟩
      · exact (hold hfree).imp (List.mem_cons_of_mem _) id
      · cases hfree
        exact ⟨List.mem_cons_self, shows, holds⟩
  · rcases free with ⟨rfl, holds⟩ | ⟨rfl, -⟩
    · rcases List.mem_cons.mp hz with rfl | hz
      · rw [shows, Option.some.injEq] at hdate
        exact hdate ▸ holds
      · exact h.full hnone z hz hdate
    · simp at hnone

/-- A day that does not cover the instant is passed over, and its zone is
put among those to try unless it was there. -/
theorem pass {toTry unlisted' : List Zone}
    (h : Searching m user goal t first tried (zone :: rest) unlisted free?)
    (shows : zone.localDate? t = some date) (holds : m.findDay user goal date = some d)
    (covers : d.covers t = false) (kept : ∀ z ∈ rest, z ∈ toTry)
    (added : ∀ z ∈ toTry, z ∈ rest ∨ z = d.zone) (listed : ∀ z ∈ unlisted, z ∈ unlisted' ∨ z ∈ toTry)
    (met : d.zone ∈ zone :: tried ∨ d.zone ∈ toTry) :
    Searching m user goal t first (zone :: tried) toTry unlisted' free? := by
  have hzone : Tries m user goal t first d.zone :=
    .met (h.tries zone (.inr List.mem_cons_self)) shows holds covers
  refine h.advance shows kept (fun z hz => ?_) listed (fun e he => ?_)
    (.inl ⟨rfl, holds ▸ Option.some_ne_none d⟩)
  · rcases added z hz with hz | rfl
    · exact .inl hz
    · exact .inr hzone
  · rw [holds, Option.some.injEq] at he
    exact he ▸ ⟨covers, met⟩

/-- A date without a day is the free date, unless there was one before. -/
theorem vacant (h : Searching m user goal t first tried (zone :: rest) unlisted free?)
    (shows : zone.localDate? t = some date) (holds : m.findDay user goal date = none) :
    Searching m user goal t first (zone :: tried) rest unlisted (free?.or (some (zone, date))) :=
  h.advance shows (fun _ => id) (fun _ => .inl) (fun _ => .inl) (by simp [holds])
    (.inr ⟨rfl, holds⟩)

/-- With none left to try, every zone that the search tries was tried. -/
theorem mem_of_tries (h : Searching m user goal t first tried [] unlisted free?) {z : Zone}
    (tries : Tries m user goal t first z) : z ∈ tried := by
  induction tries with
  | first hz => simpa using h.all _ hz
  | met _ shows holds _ ih => simpa using (h.passed _ ih shows holds).2

/-- Without a free date a search that is over was blocked. -/
theorem blocked (h : Searching m user goal t first tried [] unlisted none) :
    Blocked m user goal t first := by
  intro z tries
  have hz := h.mem_of_tries tries
  obtain ⟨date, hdate⟩ := h.dated z hz
  obtain ⟨d, hd⟩ := Option.ne_none_iff_exists'.mp (h.full rfl z hz hdate)
  exact ⟨date, d, hdate, hd, (h.passed z hz hdate hd).1⟩

end Searching
end Search

/-- What a search ends in where no call fails. -/
def MemoryStore.seek (m : MemoryStore) (user goal : Id) (t : Instant) (toTry unlisted : List Zone)
    (free? : Option (Zone × Date)) : Except Stop Placement :=
  match toTry with
  | [] => match free? with
    | some (zone, date) => .ok ⟨.preceding none, zone, date⟩
    | none => .error (.failed (.violation (.noDayFor t)))
  | zone :: rest => match zone.localDate? t with
    | none => .error .outOfRange
    | some date => match m.findDay user goal date with
      | some d =>
        if d.covers t then .ok ⟨.preceding (some d), d.zone, d.date⟩
        else if d.zone ∈ unlisted then
          seek m user goal t (rest ++ [d.zone]) (unlisted.erase d.zone) free?
        else seek m user goal t rest unlisted free?
      | none => seek m user goal t rest unlisted (free?.or (some (zone, date)))
termination_by toTry.length + unlisted.length
decreasing_by
  · next h =>
    have := List.length_erase_of_mem h
    have := List.length_pos_of_mem h
    simp only [List.length_append, List.length_cons, List.length_nil]
    omega
  · simp only [List.length_cons]; omega
  · simp only [List.length_cons]; omega

/-- A search ends in a day or a free date, or finds nothing. By induction
along the search. -/
theorem Searching.seek_ok {m : MemoryStore} {user goal : Id} {t : Instant}
    {first tried toTry unlisted : List Zone} {free? : Option (Zone × Date)}
    (searching : Searching m user goal t first tried toTry unlisted free?) :
    match m.seek user goal t toTry unlisted free? with
    | .ok p => Sought m user goal t first p
    | .error stop => Lost m user goal t first stop := by
  fun_induction MemoryStore.seek m user goal t toTry unlisted free? generalizing tried with
  | case1 unlisted zone date =>
    obtain ⟨hz, shows, holds⟩ := searching.free rfl
    refine .free (searching.tries zone (.inl hz)) shows holds (fun z hz => ?_)
      fun tries shows holds => ?_
    · exact searching.dated z (by simpa using searching.all z hz)
    · exact (searching.passed _ (searching.mem_of_tries tries) shows holds).1
  | case2 unlisted => exact .blocked searching.blocked
  | case3 unlisted free? zone rest undated =>
    exact .undated (searching.tries zone (.inr List.mem_cons_self)) undated
  | case4 unlisted free? zone rest date shows d holds covers =>
    have hd := MemoryStore.key_of_findDay holds
    exact .found (searching.tries zone (.inr List.mem_cons_self)) (hd.2.2 ▸ shows)
      (hd.2.2 ▸ holds) covers
  | case5 unlisted free? zone rest date shows d holds covers hz ih =>
    refine ih (searching.pass shows holds (by simpa using covers) ?_ ?_ ?_ ?_)
    · exact fun z hz => List.mem_append_left _ hz
    · exact fun z hz => by simpa using hz
    · intro z hz'
      by_cases heq : z = d.zone
      · exact .inr (by simp [heq])
      · exact .inl ((List.mem_erase_of_ne heq).mpr hz')
    · exact .inr (by simp)
  | case6 unlisted free? zone rest date shows d holds covers hz ih =>
    refine ih (searching.pass shows holds (by simpa using covers) (fun _ => id) (fun _ => .inl)
      (fun _ => .inl) ?_)
    have := searching.listed d (MemoryStore.mem_of_findDay holds)
    simp only [hz, false_or, List.mem_cons] at this ⊢
    rcases this with this | this | this
    · exact .inl (.inr this)
    · exact .inl (.inl this)
    · exact .inr this
  | case7 unlisted free? zone rest date shows holds ih => exact ih (searching.vacant shows holds)

/-- What the search for the day of an instant ends in where no call fails. -/
def MemoryStore.search (m : MemoryStore) (user goal : Id) (t : Instant) (first : List Zone) :
    Except Stop Placement :=
  m.seek user goal t first ((Store.zones (.memory m)).filter (· ∉ first)) none

theorem MemoryStore.search_ok (m : MemoryStore) (user goal : Id) (t : Instant) (first : List Zone) :
    match m.search user goal t first with
    | .ok p => Sought m user goal t first p
    | .error stop => Lost m user goal t first stop :=
  (Searching.start m user goal t first).seek_ok

namespace Work

variable {base : World} {user goal user' goal' : Id} {v : Scope} {t : Instant}

/-- A search answers what it would where no call fails. By induction on the
zones to try and unlisted: each step leaves one fewer of them. -/
theorem searchPreceding_answers {toTry unlisted : List Zone} {free? : Option (Zone × Date)}
    {w : World} (h : base.At user' goal' v w) :
    WP (searchPreceding user goal t toTry unlisted free?) w
      (fun p w' => v.store.seek user goal t toTry unlisted free? = .ok p ∧ base.At user' goal' v w')
      fun stop w' =>
        (base.Failing stop ∨ v.store.seek user goal t toTry unlisted free? = .error stop) ∧
        base.At user' goal' v w' := by
  induction size : toTry.length + unlisted.length using Nat.strongRecOn
    generalizing toTry unlisted free? w with
  | ind n ih =>
  cases toTry with
  | nil =>
    cases free? with
    | some found =>
      rw [searchPreceding, MemoryStore.seek]
      exact WP.pure ⟨rfl, h⟩
    | none =>
      rw [searchPreceding, MemoryStore.seek]
      refine (report_ok _ h).bind (fun _ w₁ h₁ => ?_) fun _ _ => False.elim
      exact (fail_ok _ h₁).mono (fun _ _ => False.elim)
        fun _ _ => And.imp_left fun hstop => .inr (congrArg _ hstop.symm)
  | cons zone rest =>
    rw [searchPreceding, MemoryStore.seek]
    rw [List.length_cons] at size
    refine (inRange_ok _ w).bind (fun date w₁ dated => ?_) fun stop w₁ undated => ?_
    rotate_left
    · obtain ⟨⟨undated, rfl⟩, rfl⟩ := undated
      exact ⟨.inr (by rw [undated]), h⟩
    obtain ⟨shows, rfl⟩ := dated
    refine (findDay_ok _ _ _ h).bind (fun found w₂ answered => ?_) fun _ _ => And.imp_left .inl
    obtain ⟨hfound, h₂⟩ := answered
    simp only [shows, ← hfound]
    cases found with
    | none => exact ih _ (by omega) h₂ rfl
    | some d =>
      simp only
      by_cases covers : d.covers t = true
      · rw [if_pos covers, if_pos covers]
        exact WP.pure ⟨rfl, h₂⟩
      · rw [if_neg covers, if_neg covers]
        split
        · next hz =>
          have erased := List.length_erase_of_mem hz
          have positive := List.length_pos_of_mem hz
          refine ih _ ?_ h₂ rfl
          simp only [List.length_append, List.length_cons, List.length_nil]
          omega
        · exact ih _ (by omega) h₂ rfl

end Work

/-! ## Beside the cached day -/

section Place

variable (m : MemoryStore) (user : User) (goal : Id) (t : Instant)

/-- Where an instant is placed by the cached last day, if there is one. -/
inductive Placed : Option Day → Placement → Prop where
  | empty {date : Date} (shows : user.zone.localDate? t = some date) :
      Placed none ⟨.empty, user.zone, date⟩
  | current {c : Day} (covers : c.covers t = true) : Placed (some c) ⟨.current c, c.zone, c.date⟩
  | following {c : Day} {date : Date} (after : c.ends ≤ t)
      (shows : user.zone.localDate? t = some date) (later : c.date < date) :
      Placed (some c) ⟨.following, user.zone, date⟩
  | followingCached {c : Day} {date userDate : Date} (after : c.ends ≤ t)
      (shows : user.zone.localDate? t = some userDate) (notLater : userDate ≤ c.date)
      (showsCached : c.zone.localDate? t = some date) :
      Placed (some c) ⟨.following, c.zone, date⟩
  | preceding {c : Day} {p : Placement} (before : t < c.starts)
      (sought : Sought m user.id goal t (Work.firstZones user.zone c.zone) p)
      (beforeEnd : t < c.ends) : Placed (some c) p

/-- Why an instant is placed nowhere. -/
inductive Unplaced : Option Day → Stop → Prop where
  | user {cached : Option Day} (h : user.zone.localDate? t = none) : Unplaced cached .outOfRange
  | cached {c : Day} (h : c.zone.localDate? t = none) : Unplaced (some c) .outOfRange
  | preceding {c : Day} {stop : Stop} (before : t < c.starts)
      (lost : Lost m user.id goal t (Work.firstZones user.zone c.zone) stop) : Unplaced (some c) stop

end Place

/-- An instant that a day does not cover and that is not at its end or later
lies before it. -/
theorem Day.lt_starts {d : Day} {t : Instant} (covers : ¬ d.covers t = true) (h : ¬ d.ends ≤ t) :
    t < d.starts := by
  rw [Day.covers_def] at covers
  exact lt_of_not_ge fun starts => covers ⟨starts, lt_of_not_ge h⟩

/-- Where an instant is placed by the cached last day where no call fails. -/
def MemoryStore.place (m : MemoryStore) (user : User) (goal : Id) (t : Instant) (cached : Option Day) :
    Except Stop Placement :=
  match user.zone.localDate? t with
  | none => .error .outOfRange
  | some userDate => match cached with
    | none => .ok ⟨.empty, user.zone, userDate⟩
    | some c =>
      if c.covers t then .ok ⟨.current c, c.zone, c.date⟩
      else if c.ends ≤ t then
        if c.date < userDate then .ok ⟨.following, user.zone, userDate⟩
        else match c.zone.localDate? t with
          | none => .error .outOfRange
          | some date => .ok ⟨.following, c.zone, date⟩
      else m.search user.id goal t (Work.firstZones user.zone c.zone)

theorem MemoryStore.place_ok (m : MemoryStore) (user : User) (goal : Id) (t : Instant)
    (cached : Option Day) :
    match m.place user goal t cached with
    | .ok p => Placed m user goal t cached p
    | .error stop => Unplaced m user goal t cached stop := by
  unfold place
  cases shows : user.zone.localDate? t with
  | none => exact .user shows
  | some userDate =>
    cases cached with
    | none => exact .empty shows
    | some c =>
      simp only
      by_cases covers : c.covers t = true
      · rw [if_pos covers]
        exact .current covers
      rw [if_neg covers]
      by_cases after : c.ends ≤ t
      · rw [if_pos after]
        by_cases later : c.date < userDate
        · rw [if_pos later]
          exact .following after shows later
        · rw [if_neg later]
          cases showsCached : c.zone.localDate? t with
          | none => exact .cached showsCached
          | some date => exact .followingCached after shows (le_of_not_gt later) showsCached
      · rw [if_neg after]
        have searched := m.search_ok user.id goal t (Work.firstZones user.zone c.zone)
        revert searched
        cases m.search user.id goal t (Work.firstZones user.zone c.zone) with
        | ok p =>
          exact fun sought => .preceding (Day.lt_starts covers after) sought (lt_of_not_ge after)
        | error stop => exact .preceding (Day.lt_starts covers after)

namespace Work

variable {base w : World} {user : User} {goal user' goal' : Id} {v : Scope} {slot : Slot} {t : Instant}

/-- An instant is placed where it would be where no call fails. -/
theorem place_answers (h : base.At user' goal' v w) :
    WP (place slot user goal t) w
      (fun p w' => v.store.place user goal t slot.day = .ok p ∧ base.At user' goal' v w')
      fun stop w' => (base.Failing stop ∨ v.store.place user goal t slot.day = .error stop) ∧
        base.At user' goal' v w' := by
  unfold place MemoryStore.place
  refine (inRange_ok _ w).bind (fun userDate w₁ dated => ?_) fun stop w₁ undated => ?_
  rotate_left
  · obtain ⟨⟨undated, rfl⟩, rfl⟩ := undated
    exact ⟨.inr (by rw [undated]), h⟩
  obtain ⟨shows, rfl⟩ := dated
  simp only [shows]
  cases slot.day with
  | none => exact WP.pure ⟨rfl, h⟩
  | some c =>
    simp only
    by_cases covers : c.covers t = true
    · rw [if_pos covers, if_pos covers]
      exact WP.pure ⟨rfl, h⟩
    rw [if_neg covers, if_neg covers]
    by_cases after : c.ends ≤ t
    · rw [if_pos after, if_pos after]
      by_cases later : c.date < userDate
      · rw [if_pos later, if_pos later]
        exact WP.pure ⟨rfl, h⟩
      · rw [if_neg later, if_neg later]
        refine (inRange_ok _ w₁).bind (fun date w₂ dated => ?_) fun stop w₂ undated => ?_
        · obtain ⟨showsCached, rfl⟩ := dated
          rw [showsCached]
          exact WP.pure ⟨rfl, h⟩
        · obtain ⟨⟨undated, rfl⟩, rfl⟩ := undated
          exact ⟨.inr (by rw [undated]), h⟩
    · rw [if_neg after, if_neg after]
      refine (get_ok h).bind (fun world w₂ same => ?_) fun _ _ => False.elim
      obtain ⟨hstore, h₂⟩ := same
      rw [hstore]
      exact searchPreceding_answers h₂

theorem place_ok (h : base.At user' goal' v w) :
    WP (place slot user goal t) w
      (fun p w' => Placed v.store user goal t slot.day p ∧ base.At user' goal' v w')
      fun stop w' => (base.Failing stop ∨ Unplaced v.store user goal t slot.day stop) ∧
        base.At user' goal' v w' := by
  have placed := v.store.place_ok user goal t slot.day
  refine (place_answers h).mono (fun p w' ⟨answer, h'⟩ => ⟨?_, h'⟩)
    fun stop w' ⟨why, h'⟩ => ⟨why.imp id fun answer => ?_, h'⟩
  · rwa [answer] at placed
  · rwa [answer] at placed

end Work
end UsageDiary
