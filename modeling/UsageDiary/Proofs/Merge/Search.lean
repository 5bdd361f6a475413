import Mathlib.Data.Set.Card
import UsageDiary.Merge.Lookup
import UsageDiary.Proofs.Store.Memory
import UsageDiary.Proofs.Store.Rows
import UsageDiary.Proofs.Work

/-!
# The rounds of a search

A search for the day of an instant works on a list of zones that grows while
it is gone through: each round takes the next zone, asks the store for its
date, and may put the zone of the day found at the end (`Seeks`). The zones
to add come from what is stored, and each is added once, so no zone is tried
twice and the search is over after at most as many rounds as there are zones
to come to (`Store.candidates`).

`Underway` is what every round keeps, and `Seeks.concludes` what the rounds
come to: a stored day that covers the instant, the first date that was free,
or nothing (`Concludes`). The search of the program goes through these rounds
(`Work.searchPreceding_rounds`), in memory and in tables alike. Main
statement: `Work.search_rounds`.
-/

namespace UsageDiary

/-! ## The zones of a store -/

theorem TableStore.ok_of_zoneResult {α : Type} {r : Except ZoneError α} {a : α}
    (h : zoneResult r = .ok a) : r = .ok a := by
  cases r with
  | error e => cases h
  | ok b => cases h; rfl

/-- A day that is read from a row has a zone of the directory. -/
theorem TableStore.zone_of_dayOfRow {dir : Zone.Directory} {r : Row} {d : Day}
    (h : dayOfRow dir r = .ok d) : d.zone ∈ dir.zones := by
  obtain ⟨_, -, h⟩ := exists_of_bind h
  obtain ⟨_, -, h⟩ := exists_of_bind h
  obtain ⟨_, -, h⟩ := exists_of_bind h
  obtain ⟨_, -, h⟩ := exists_of_bind h
  obtain ⟨_, -, h⟩ := exists_of_bind h
  obtain ⟨zone, parsed, h⟩ := exists_of_bind h
  obtain ⟨empty, opened, rfl⟩ := Day.restore_eq (ok_of_zoneResult h)
  rw [(Day.create_eq_ok opened).2.2]
  exact Zone.Directory.mem_of_parse (ok_of_zoneResult parsed)

namespace Store

variable {s : Store} {user goal : Id} {date : Date} {d : Day}

/-- The store answers a query for a user, goal and date with this: the day
that it holds, or none. -/
def Holds (s : Store) (user goal : Id) (date : Date) (found : Option Day) : Prop :=
  (s.findDay user goal date).result = .ok found

/-- The zone of a day that is found is among those of the store. -/
theorem Holds.zone_mem (h : s.Holds user goal date (some d)) : d.zone ∈ s.zones := by
  unfold Holds findDay at h
  cases s with
  | memory m =>
    have stored : d ∈ m.days := MemoryStore.mem_of_findDay (Except.ok.inj h)
    rw [zones, List.mem_eraseDups]
    exact List.mem_map_of_mem stored
  | tables t =>
    simp only [queried] at h
    split at h
    · next r _ =>
      cases read : TableStore.dayOfRow t.directory r with
      | error e => rw [read] at h; cases h
      | ok e =>
        rw [read] at h
        cases h
        exact TableStore.zone_of_dayOfRow read
    · cases h

theorem nodup_zones (s : Store) : s.zones.Nodup := by
  cases s with
  | memory m => exact MemoryStore.nodup_eraseDups _
  | tables t => exact t.directory.distinct.of_map _

/-- The zones that a search may come to: the first ones, and those of the
days that are stored for the user and goal. -/
def candidates (s : Store) (user goal : Id) (first : List Zone) : Set Zone :=
  {z | z ∈ first ∨ ∃ date d, s.Holds user goal date (some d) ∧ d.zone = z}

theorem finite_candidates (s : Store) (user goal : Id) (first : List Zone) :
    (s.candidates user goal first).Finite := by
  refine (first ++ s.zones).finite_toSet.subset fun z hz => ?_
  rw [Set.mem_ofPred_eq, List.mem_append]
  rcases hz with hz | ⟨date, d, holds, rfl⟩
  · exact .inl hz
  · exact .inr holds.zone_mem

/-- Different candidates are at most as many as there are. -/
theorem length_le_candidates {first tried : List Zone} (once : tried.Nodup)
    (among : ∀ z ∈ tried, z ∈ s.candidates user goal first) :
    tried.length ≤ (s.candidates user goal first).ncard := by
  rw [← List.toFinset_card_of_nodup once, ← Set.ncard_coe_finset]
  exact Set.ncard_le_ncard (fun z hz => among z (by simpa using hz)) (s.finite_candidates user goal first)

end Store

/-! ## Rounds -/

section Rounds

variable (s : Store) (user goal : Id) (t : Instant)

/-- The rounds of a search, from a list of zones of which the first ones were
tried and the others wait, and the first free date so far. Each round tries
the next zone. A day found there that does not cover the instant puts its
zone at the end of the list unless it is on it. -/
inductive Seeks :
    (tried waiting : List Zone) → Option (Zone × Date) → List Zone → Except Stop Placement → Prop where
  | free {tried zone date} :
      Seeks tried [] (some (zone, date)) [] (.ok ⟨.preceding none, zone, date⟩)
  | blocked {tried} : Seeks tried [] none [] (.error (.failed (.violation (.noDayFor t))))
  | undated {tried zone rest free?} (h : zone.localDate? t = none) :
      Seeks tried (zone :: rest) free? [zone] (.error .outOfRange)
  | found {tried zone rest free? date d} (shows : zone.localDate? t = some date)
      (holds : s.Holds user goal date (some d)) (covers : d.covers t = true) :
      Seeks tried (zone :: rest) free? [zone] (.ok ⟨.preceding (some d), d.zone, d.date⟩)
  | known {tried zone rest free? date d more r} (shows : zone.localDate? t = some date)
      (holds : s.Holds user goal date (some d)) (covers : d.covers t = false)
      (listed : d.zone ∈ tried ++ zone :: rest)
      (next : Seeks (tried ++ [zone]) rest free? more r) :
      Seeks tried (zone :: rest) free? (zone :: more) r
  | met {tried zone rest free? date d more r} (shows : zone.localDate? t = some date)
      (holds : s.Holds user goal date (some d)) (covers : d.covers t = false)
      (unlisted : d.zone ∉ tried ++ zone :: rest)
      (next : Seeks (tried ++ [zone]) (rest ++ [d.zone]) free? more r) :
      Seeks tried (zone :: rest) free? (zone :: more) r
  | vacant {tried zone rest free? date more r} (shows : zone.localDate? t = some date)
      (holds : s.Holds user goal date none)
      (next : Seeks (tried ++ [zone]) rest (free?.or (some (zone, date))) more r) :
      Seeks tried (zone :: rest) free? (zone :: more) r

-- At noon the day fourteen hours ahead is over, and its zone is tried next.
example : Seeks (.memory { days := [Sample.eastDay ⟨1⟩] }) ⟨2⟩ ⟨3⟩ ((Instant.ofParts? 1736251200 0).getD .epoch)
    [] [.utc] none [.utc, .east14] (.ok ⟨.preceding none, .east14, (Date.ofDay? 20096).getD .epoch⟩) :=
  .met rfl rfl rfl (by decide) (.vacant rfl rfl .free)

/-- The zone shows the date of a day that does not cover the instant. -/
def Passes (z : Zone) : Prop :=
  ∃ date d, z.localDate? t = some date ∧ s.Holds user goal date (some d) ∧ d.covers t = false

/-- The zone shows a date on which no day is stored. -/
def Shows (z : Zone) (date : Date) : Prop :=
  z.localDate? t = some date ∧ s.Holds user goal date none

/-- The zone leads to no day that covers the instant. -/
def InVain (z : Zone) : Prop := Passes s user goal t z ∨ ∃ date, Shows s user goal t z date

/-- What a search comes to that tried these zones in order. -/
inductive Concludes : List Zone → Except Stop Placement → Prop where
  | found {before z date d} (vain : ∀ y ∈ before, InVain s user goal t y)
      (shows : z.localDate? t = some date) (holds : s.Holds user goal date (some d))
      (covers : d.covers t = true) :
      Concludes (before ++ [z]) (.ok ⟨.preceding (some d), d.zone, d.date⟩)
  | free {before z date behind} (passes : ∀ y ∈ before, Passes s user goal t y)
      (shows : Shows s user goal t z date) (vain : ∀ y ∈ behind, InVain s user goal t y) :
      Concludes (before ++ z :: behind) (.ok ⟨.preceding none, z, date⟩)
  | blocked {tried} (passes : ∀ z ∈ tried, Passes s user goal t z) :
      Concludes tried (.error (.failed (.violation (.noDayFor t))))
  | undated {before z} (vain : ∀ y ∈ before, InVain s user goal t y) (h : z.localDate? t = none) :
      Concludes (before ++ [z]) (.error .outOfRange)

/-- The first free date that these zones lead to. -/
def FirstFree (tried : List Zone) : Option (Zone × Date) → Prop
  | none => ∀ z ∈ tried, Passes s user goal t z
  | some (z, date) => Shows s user goal t z date ∧
      ∃ before behind, tried = before ++ z :: behind ∧ ∀ y ∈ before, Passes s user goal t y

/-- A search is under way: its zones are different candidates, and those
tried were in vain. -/
structure Underway (first tried waiting : List Zone) (free? : Option (Zone × Date)) : Prop where
  once : (tried ++ waiting).Nodup
  among : ∀ z ∈ tried ++ waiting, z ∈ s.candidates user goal first
  vain : ∀ z ∈ tried, InVain s user goal t z
  firstFree : FirstFree s user goal t tried free?

end Rounds

section Rounds

variable {s : Store} {user goal : Id} {t : Instant} {first tried rest : List Zone}
  {free? : Option (Zone × Date)} {zone : Zone} {date : Date} {d : Day}

theorem FirstFree.passed (h : FirstFree s user goal t tried free?) (passes : Passes s user goal t zone) :
    FirstFree s user goal t (tried ++ [zone]) free? := by
  cases free? with
  | none =>
    intro z hz
    rcases List.mem_append.mp hz with hz | hz
    · exact h z hz
    · exact List.mem_singleton.mp hz ▸ passes
  | some free =>
    obtain ⟨shows, before, behind, rfl, all⟩ := h
    exact ⟨shows, before, behind ++ [zone], by simp, all⟩

theorem FirstFree.vacant (h : FirstFree s user goal t tried free?) (shows : Shows s user goal t zone date) :
    FirstFree s user goal t (tried ++ [zone]) (free?.or (some (zone, date))) := by
  cases free? with
  | none => exact ⟨shows, tried, [], rfl, h⟩
  | some free =>
    obtain ⟨shows, before, behind, rfl, all⟩ := h
    exact ⟨shows, before, behind ++ [zone], by simp, all⟩

namespace Underway

theorem start (once : first.Nodup) : Underway s user goal t first [] first none where
  once := once
  among _ hz := .inl hz
  vain := by simp
  firstFree := by simp [FirstFree]

/-- A zone that was tried in vain goes from those that wait to those tried. -/
theorem tries {free' : Option (Zone × Date)} (h : Underway s user goal t first tried (zone :: rest) free?)
    (vain : InVain s user goal t zone) (firstFree : FirstFree s user goal t (tried ++ [zone]) free') :
    Underway s user goal t first (tried ++ [zone]) rest free' where
  once := by simpa using h.once
  among := by simpa using h.among
  vain z hz := by
    rcases List.mem_append.mp hz with hz | hz
    · exact h.vain z hz
    · exact List.mem_singleton.mp hz ▸ vain
  firstFree := firstFree

theorem passed (h : Underway s user goal t first tried (zone :: rest) free?)
    (passes : Passes s user goal t zone) : Underway s user goal t first (tried ++ [zone]) rest free? :=
  h.tries (.inl passes) (h.firstFree.passed passes)

theorem vacant (h : Underway s user goal t first tried (zone :: rest) free?)
    (shows : Shows s user goal t zone date) :
    Underway s user goal t first (tried ++ [zone]) rest (free?.or (some (zone, date))) :=
  h.tries (.inr ⟨date, shows⟩) (h.firstFree.vacant shows)

/-- The zone of a stored day joins those that wait, unless it is on the list. -/
theorem joined (h : Underway s user goal t first tried rest free?)
    (holds : s.Holds user goal date (some d)) (unlisted : d.zone ∉ tried ++ rest) :
    Underway s user goal t first tried (rest ++ [d.zone]) free? where
  once := by
    rw [← List.append_assoc, List.nodup_append]
    refine ⟨h.once, List.nodup_singleton _, fun a ha b hb => ?_⟩
    rintro rfl
    exact unlisted (List.mem_singleton.mp hb ▸ ha)
  among z hz := by
    rw [← List.append_assoc, List.mem_append, List.mem_singleton] at hz
    rcases hz with hz | rfl
    · exact h.among z hz
    · exact .inr ⟨date, d, holds, rfl⟩
  vain := h.vain
  firstFree := h.firstFree

end Underway

/-- The zones of all rounds are different candidates, and what the search
comes to is concluded from them. By induction on the rounds. -/
theorem Seeks.concludes {waiting more : List Zone} {r : Except Stop Placement}
    (h : Seeks s user goal t tried waiting free? more r)
    (underway : Underway s user goal t first tried waiting free?) :
    (tried ++ more).Nodup ∧ (∀ z ∈ tried ++ more, z ∈ s.candidates user goal first) ∧
      Concludes s user goal t (tried ++ more) r := by
  -- a search that ends with a zone leaves those behind it out
  have upTo {tried rest : List Zone} {zone : Zone} {free? : Option (Zone × Date)}
      (h : Underway s user goal t first tried (zone :: rest) free?) :
      (tried ++ [zone]).Nodup ∧ ∀ z ∈ tried ++ [zone], z ∈ s.candidates user goal first := by
    have front : (tried ++ [zone]).Sublist (tried ++ zone :: rest) :=
      (List.Sublist.refl tried).append (by simp)
    exact ⟨h.once.sublist front, fun z hz => h.among z (front.subset hz)⟩
  induction h with
  | free =>
    obtain ⟨shows, before, behind, rfl, passes⟩ := underway.firstFree
    refine ⟨underway.once, underway.among, ?_⟩
    rw [List.append_nil]
    exact .free passes shows fun y hy =>
      underway.vain y (List.mem_append_right _ (List.mem_cons_of_mem _ hy))
  | blocked =>
    refine ⟨underway.once, underway.among, ?_⟩
    rw [List.append_nil]
    exact .blocked underway.firstFree
  | undated h => exact ⟨(upTo underway).1, (upTo underway).2, .undated underway.vain h⟩
  | found shows holds covers =>
    exact ⟨(upTo underway).1, (upTo underway).2, .found underway.vain shows holds covers⟩
  | known shows holds covers listed next ih =>
    simpa using ih (underway.passed ⟨_, _, shows, holds, covers⟩)
  | met shows holds covers unlisted next ih =>
    simpa using ih ((underway.passed ⟨_, _, shows, holds, covers⟩).joined holds (by simpa using unlisted))
  | vacant shows holds next ih => simpa using ih (underway.vacant ⟨shows, holds⟩)

/-- The first zone that waits is tried next. -/
theorem Seeks.head?_eq {waiting more : List Zone} {r : Except Stop Placement}
    (h : Seeks s user goal t tried waiting free? more r) (first : waiting.head? = some zone) :
    more.head? = some zone := by
  cases h with
  | free | blocked => cases first
  | undated | found | known | met | vacant => exact first

end Rounds

/-! ## Worlds that are only asked -/

namespace World

/-- A world that queries came to from `base`: these calls were noted, the
store is the same, and there are outages only if there were some. -/
structure Asked (base : World) (made : List Call) (w : World) : Prop where
  store : w.store = base.store
  calls : w.calls = base.calls ++ made
  outages : base.outages = [] → w.outages = []

/-- A query for a day of the user and goal may fail: there are outages, or
the store has no answer for some date. -/
def Frail (base : World) (user goal : Id) : Prop :=
  base.outages ≠ [] ∨ ∃ date e, (base.store.findDay user goal date).result = .error e

/-- A query failed, which it may. -/
def Lapsed (base : World) (user goal : Id) (stop : Stop) : Prop :=
  (∃ e, stop = .failed (.storage e)) ∧ base.Frail user goal

end World

namespace Work

variable {base w : World} {user goal : Id} {made : List Call} {t : Instant}

theorem report_asked (e : LogEvent) (h : base.Asked made w) :
    WP (report e) w (fun _ w' => base.Asked made w') fun _ _ => False :=
  ⟨h.store, h.calls, h.outages⟩

/-- The reports of a store are added to the log one by one. -/
theorem reports_asked (es : List LogEvent) (h : base.Asked made w) :
    WP (es.forM report) w (fun _ w' => base.Asked made w') fun _ _ => False := by
  induction es generalizing w with
  | nil => exact WP.pure h
  | cons e rest ih => exact (report_asked e h).bind (fun _ _ h' => ih h') fun _ _ => id

theorem record_asked (c : Call) (h : base.Asked made w) :
    WP (record c) w (fun _ w' => base.Asked (made ++ [c]) w') fun _ _ => False :=
  ⟨h.store, (congrArg (· ++ [c]) h.calls).trans (List.append_assoc ..), h.outages⟩

/-- Without outages to begin with none is met. -/
theorem meetOutage_asked (call : CallKind) (h : base.Asked made w) :
    WP (meetOutage call) w
      (fun met w' => (base.outages = [] → met = none) ∧ (met = none → base.Asked made w'))
      fun _ _ => False :=
  (meetOutage_meets call w).mono (fun _ _ meets => ⟨fun none => (meets.none (h.outages none)).1,
    fun passed => ⟨meets.store.trans h.store, (meets.calls passed).trans h.calls,
      fun none => (meets.none (h.outages none)).2⟩⟩) fun _ _ => id

/-- A query is answered and noted, or it fails. -/
theorem findDay_asked (user goal : Id) (date : Date) (h : base.Asked made w) :
    WP (findDay user goal date) w
      (fun found w' => base.store.Holds user goal date found ∧
        base.Asked (made ++ [.findDay date (found.map (·.activities.length))]) w')
      fun stop _ => base.Lapsed user goal stop := by
  refine (meetOutage_asked .findDay h).bind (fun met w₁ ⟨hnone, asked⟩ => ?_) fun _ _ => False.elim
  cases met with
  | some o => exact ⟨⟨_, rfl⟩, .inl fun none => Option.some_ne_none o (hnone none)⟩
  | none =>
    have h₁ := asked rfl
    have got : WP get w₁ (fun a w' => a.store = base.store ∧ base.Asked made w') fun _ _ => False :=
      ⟨h₁.store, h₁⟩
    refine got.bind (fun a w₂ ⟨same, h₂⟩ => ?_) fun _ _ => False.elim
    rw [same]
    have answered : WP (answer (base.store.findDay user goal date)) w₂
        (fun found w' => base.store.Holds user goal date found ∧ base.Asked made w')
        fun stop _ => base.Lapsed user goal stop := by
      refine (reports_asked _ h₂).bind (fun _ w₃ h₃ => ?_) fun _ _ => False.elim
      cases result : (base.store.findDay user goal date).result with
      | ok found => exact ⟨result, h₃⟩
      | error e => exact ⟨⟨e, rfl⟩, .inr ⟨date, e, result⟩⟩
    refine answered.bind (fun found w₃ ⟨holds, h₃⟩ => ?_) fun _ _ => id
    exact (record_asked _ h₃).bind (fun _ _ h₄ => WP.pure ⟨holds, h₄⟩) fun _ _ => False.elim

end Work

/-! ## The search of the program -/

/-- The note of the query for the date that a zone shows. -/
def Store.noteFor (s : Store) (user goal : Id) (t : Instant) (z : Zone) : Option Call :=
  (z.localDate? t).map fun date =>
    .findDay date ((s.findDay user goal date).result.toOption.join.map (·.activities.length))

/-- The zones of the store that are not on a list: each once, and those of
all days stored for the user and goal. -/
structure Listing (s : Store) (user goal : Id) (listed unlisted : List Zone) : Prop where
  once : unlisted.Nodup
  apart : ∀ z ∈ unlisted, z ∉ listed
  all : ∀ {date d}, s.Holds user goal date (some d) → d.zone ∈ unlisted ∨ d.zone ∈ listed

namespace Listing

variable {s : Store} {user goal : Id} {listed unlisted : List Zone} {date : Date} {d : Day}

theorem start (s : Store) (user goal : Id) (first : List Zone) :
    Listing s user goal first (s.zones.filter (· ∉ first)) where
  once := s.nodup_zones.filter _
  apart z hz := by simpa using (List.mem_filter.mp hz).2
  all {_ d} holds := by
    by_cases listed : d.zone ∈ first
    · exact .inr listed
    · exact .inl (List.mem_filter.mpr ⟨holds.zone_mem, by simpa using listed⟩)

/-- The zone of a stored day is on the list or not. -/
theorem mem_iff (h : Listing s user goal listed unlisted) (holds : s.Holds user goal date (some d)) :
    d.zone ∈ unlisted ↔ d.zone ∉ listed :=
  ⟨h.apart d.zone, (h.all holds).resolve_right⟩

/-- A zone is put on the list. -/
theorem joined (h : Listing s user goal listed unlisted) (zone : Zone) :
    Listing s user goal (listed ++ [zone]) (unlisted.erase zone) where
  once := h.once.erase zone
  apart z hz := by
    obtain ⟨ne, hz⟩ := h.once.mem_erase_iff.mp hz
    simp [ne, h.apart z hz]
  all {_ d} holds := by
    by_cases same : d.zone = zone
    · exact .inr (by simp [same])
    · rcases h.all holds with hz | hz
      · exact .inl ((List.mem_erase_of_ne same).mpr hz)
      · exact .inr (List.mem_append_left _ hz)

end Listing

/-- A search went through rounds to its end, from zones of which the first
ones were tried, and the query of each round was noted. -/
def World.Rounds (base : World) (user goal : Id) (t : Instant) (tried waiting : List Zone)
    (free? : Option (Zone × Date)) (made : List Call) (r : Except Stop Placement) (w : World) : Prop :=
  ∃ more, Seeks base.store user goal t tried waiting free? more r ∧
    base.Asked (made ++ more.filterMap (base.store.noteFor user goal t)) w

/-- A search that started with some zones tried these, each once, so that
there are at most as many rounds as zones to come to. What it comes to is
concluded from them. The store is the same, and was asked once in each round
for the date that the zone shows. -/
structure World.Searched (base : World) (user goal : Id) (t : Instant) (first tried : List Zone)
    (r : Except Stop Placement) (w : World) : Prop where
  seeks : Seeks base.store user goal t [] first none tried r
  once : tried.Nodup
  length_le : tried.length ≤ (base.store.candidates user goal first).ncard
  concludes : Concludes base.store user goal t tried r
  store : w.store = base.store
  calls : w.calls = base.calls ++ tried.filterMap (base.store.noteFor user goal t)

section Search

variable {base w : World} {user goal : Id} {made : List Call} {t : Instant}
  {tried waiting rest : List Zone} {free? free' : Option (Zone × Date)} {zone : Zone} {date : Date}
  {found : Option Day} {r : Except Stop Placement}

theorem Store.Holds.noteFor_eq {s : Store} (holds : s.Holds user goal date found)
    (shows : zone.localDate? t = some date) :
    s.noteFor user goal t zone = some (.findDay date (found.map (·.activities.length))) := by
  have result : (s.findDay user goal date).result = .ok found := holds
  rw [Store.noteFor, shows, Option.map_some, result]
  rfl

/-- A round, and those after it. -/
theorem World.Rounds.cons (holds : base.store.Holds user goal date found)
    (shows : zone.localDate? t = some date)
    (h : base.Rounds user goal t (tried ++ [zone]) waiting free'
      (made ++ [.findDay date (found.map (·.activities.length))]) r w)
    (round : ∀ {more}, Seeks base.store user goal t (tried ++ [zone]) waiting free' more r →
      Seeks base.store user goal t tried (zone :: rest) free? (zone :: more) r) :
    base.Rounds user goal t tried (zone :: rest) free? made r w := by
  obtain ⟨more, seeks, asked⟩ := h
  refine ⟨zone :: more, round seeks, ?_⟩
  rw [List.filterMap_cons_some (holds.noteFor_eq shows)]
  simpa using asked

theorem World.Rounds.searched {first : List Zone} (h : base.Rounds user goal t [] first none [] r w)
    (different : first.Nodup) : ∃ tried, base.Searched user goal t first tried r w := by
  obtain ⟨tried, seeks, asked⟩ := h
  obtain ⟨once, among, concludes⟩ := seeks.concludes (.start different)
  exact ⟨tried, seeks, once, Store.length_le_candidates once among, concludes, asked.store, asked.calls⟩

namespace Work

/-- The program goes through the rounds of a search. By induction on the
zones to try and unlisted: each round leaves one fewer of them. -/
theorem searchPreceding_rounds {unlisted : List Zone} (h : base.Asked made w)
    (listing : Listing base.store user goal (tried ++ waiting) unlisted) :
    WP (searchPreceding user goal t waiting unlisted free?) w
      (fun p w' => base.Rounds user goal t tried waiting free? made (.ok p) w')
      fun stop w' => base.Lapsed user goal stop ∨
        base.Rounds user goal t tried waiting free? made (.error stop) w' := by
  induction size : waiting.length + unlisted.length using Nat.strongRecOn
    generalizing tried waiting unlisted free? made w with
  | ind n ih =>
  cases waiting with
  | nil =>
    cases free? with
    | some free =>
      rw [searchPreceding]
      exact WP.pure ⟨[], .free, by simpa using h⟩
    | none =>
      rw [searchPreceding]
      refine (report_asked _ h).bind (fun _ w₁ h₁ => ?_) fun _ _ => False.elim
      exact .inr ⟨[], .blocked, by simpa using h₁⟩
  | cons zone rest =>
    rw [searchPreceding]
    rw [List.length_cons] at size
    cases shows : zone.localDate? t with
    | none => exact .inr ⟨[zone], .undated shows, by simpa [Store.noteFor, shows] using h⟩
    | some date =>
      refine (findDay_asked user goal date h).bind (fun found w₁ answered => ?_) fun _ _ => .inl
      obtain ⟨holds, h₁⟩ := answered
      have tried' : Listing base.store user goal ((tried ++ [zone]) ++ rest) unlisted :=
        List.append_cons tried zone rest ▸ listing
      cases found with
      | none =>
        exact (ih _ (by omega) h₁ tried' rfl).mono
          (fun _ _ rounds => rounds.cons holds shows (.vacant shows holds))
          fun _ _ => Or.imp_right (·.cons holds shows (.vacant shows holds))
      | some d =>
        refine WP.ite (fun covers => ?_) fun covers => ?_
        · refine WP.pure ⟨[zone], .found shows holds covers, ?_⟩
          rw [List.filterMap_cons_some (holds.noteFor_eq shows)]
          exact h₁
        have covers : d.covers t = false := by simpa using covers
        by_cases unlisted' : d.zone ∈ unlisted
        · rw [if_pos unlisted']
          have erased := List.length_erase_of_mem unlisted'
          have positive := List.length_pos_of_mem unlisted'
          have fewer : (rest ++ [d.zone]).length + (unlisted.erase d.zone).length < n := by
            rw [List.length_append, List.length_singleton]
            omega
          have new := (listing.mem_iff holds).mp unlisted'
          exact (ih _ fewer h₁ (List.append_assoc .. ▸ tried'.joined d.zone) rfl).mono
            (fun _ _ rounds => rounds.cons holds shows (.met shows holds covers new))
            fun _ _ => Or.imp_right (·.cons holds shows (.met shows holds covers new))
        · rw [if_neg unlisted']
          have known : d.zone ∈ tried ++ zone :: rest := (listing.all holds).resolve_left unlisted'
          exact (ih _ (by omega) h₁ tried' rfl).mono
            (fun _ _ rounds => rounds.cons holds shows (.known shows holds covers known))
            fun _ _ => Or.imp_right (·.cons holds shows (.known shows holds covers known))

/-- The search ends, and unless it meets a store failure it went through
rounds to its end, the user's zone first. A store failure takes an outage or
a day that cannot be read. -/
theorem search_rounds (user : User) (cachedZone : Zone) (goal : Id) (t : Instant) (w : World) :
    ∃ r w', (placePreceding user cachedZone goal t).exec w = (r, w') ∧
      ((∃ stop, r = .error stop ∧ w.Lapsed user.id goal stop) ∨
        ∃ tried, w.Searched user.id goal t (firstZones user.zone cachedZone) tried r w' ∧
          tried.head? = some user.zone) := by
  have done {r : Except Stop Placement} {w' : World}
      (h : w.Rounds user.id goal t [] (firstZones user.zone cachedZone) none [] r w') :
      ∃ tried, w.Searched user.id goal t (firstZones user.zone cachedZone) tried r w' ∧
        tried.head? = some user.zone := by
    obtain ⟨tried, searched⟩ := h.searched (nodup_firstZones ..)
    exact ⟨tried, searched, searched.seeks.head?_eq (head?_firstZones ..)⟩
  have run : WP (placePreceding user cachedZone goal t) w
      (fun p w' => w.Rounds user.id goal t [] (firstZones user.zone cachedZone) none [] (.ok p) w')
      fun stop w' => w.Lapsed user.id goal stop ∨
        w.Rounds user.id goal t [] (firstZones user.zone cachedZone) none [] (.error stop) w' :=
    searchPreceding_rounds ⟨rfl, (List.append_nil _).symm, id⟩ (Listing.start ..)
  rcases exec : (placePreceding user cachedZone goal t).exec w with ⟨stop | p, w'⟩
  · refine ⟨_, w', rfl, ?_⟩
    rcases run.of_exec_error exec with lapsed | rounds
    · exact .inl ⟨stop, rfl, lapsed⟩
    · exact .inr (done rounds)
  · exact ⟨_, w', rfl, .inr (done (run.of_exec exec))⟩

end Work
end Search
end UsageDiary
