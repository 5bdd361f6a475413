import Mathlib.Data.List.Find
import UsageDiary.Proofs.Store.Memory
import UsageDiary.Proofs.Store.Rows

/-!
# The two stores agree

Calls are made to a store one after the other (`Store.answers`). If ids and
zones are used as they should be (`Orderly`), the tables hold the rows of what
the memory holds, in the same order (`Copies`). Every call keeps that and has
the same answer in both stores (`Copies.call`), so all calls have
(`Store.answers_agree`).
-/

namespace UsageDiary

/-- A call to a store. -/
inductive StoreCall where
  | findLast (user goal : Id)
  | findDay (user goal : Id) (date : Date)
  | findWeek (user goal : Id) (weekStart : Date)
  | saveDay (d : Day)
  | saveWeek (w : Week)

/-- What a call to a store answers. -/
inductive StoreAnswer where
  | day (found : Option Day)
  | week (found : Option Week)
  | saved
deriving DecidableEq

namespace Store

/-- The outcome of a save: the store after it, or the error and the store
before it. -/
def savedOr (s : Store) : Except StoreError Store → Except StoreError StoreAnswer × Store
  | .ok s' => (.ok .saved, s')
  | .error e => (.error e, s)

/-- The answer to a call, and the store after it. -/
def call (s : Store) : StoreCall → Except StoreError StoreAnswer × Store
  | .findLast user goal => ((s.findLast user goal).result.map .day, s)
  | .findDay user goal date => ((s.findDay user goal date).result.map .day, s)
  | .findWeek user goal weekStart => ((s.findWeek user goal weekStart).result.map .week, s)
  | .saveDay d => s.savedOr (s.saveDay d).result
  | .saveWeek w => s.savedOr (s.saveWeek w).result

/-- The answers to calls, one after the other. -/
def answers (s : Store) : List StoreCall → List (Except StoreError StoreAnswer)
  | [] => []
  | c :: rest => (s.call c).1 :: (s.call c).2.answers rest

end Store

/-! ## Orderly calls -/

/-- What a call names fits the types, and what it saves came about as days
and weeks do, in zones of a directory, days on dates of the years 0 to 9999. -/
def StoreCall.Fits (dir : Zone.Directory) : StoreCall → Prop
  | findLast user goal | findDay user goal _ | findWeek user goal _ => user.Fits ∧ goal.Fits
  | saveDay d => d.Made ∧ d.Fits dir ∧ d.date.Plain
  | saveWeek w => w.Made ∧ w.Fits dir

/-- Two days have the same user, goal and date. -/
def Day.SameKey (d e : Day) : Prop := d.user = e.user ∧ d.goal = e.goal ∧ d.date = e.date

/-- Two weeks have the same user, goal and first date. -/
def Week.SameKey (w x : Week) : Prop := w.user = x.user ∧ w.goal = x.goal ∧ w.weekStart = x.weekStart

/-- Every id is saved under one key only, and every key in one zone only. -/
structure Orderly (dir : Zone.Directory) (calls : List StoreCall) : Prop where
  fits : ∀ c ∈ calls, c.Fits dir
  dayKey : ∀ {d e : Day}, .saveDay d ∈ calls → .saveDay e ∈ calls → d.id = e.id → d.SameKey e
  dayZone : ∀ {d e : Day}, .saveDay d ∈ calls → .saveDay e ∈ calls → d.SameKey e → d.zone = e.zone
  weekKey : ∀ {w x : Week}, .saveWeek w ∈ calls → .saveWeek x ∈ calls → w.id = x.id → w.SameKey x
  weekZone : ∀ {w x : Week}, .saveWeek w ∈ calls → .saveWeek x ∈ calls → w.SameKey x → w.zone = x.zone

/-! ## Rows of items -/

section Items

variable {α : Type} {row : α → Row} {read : Row → Except StoreError α} {as : List α}

/-- Saving the row of an item does to rows what saving the item does to
items, if the keys of both are the same and one key has one zone. -/
theorem Table.put_map {same : α → Bool} {a : α}
    (keys : ∀ b ∈ as, same b = true ↔ (row b).key = (row a).key)
    (zones : ∀ b ∈ as, same b = true → (row b).zone = (row a).zone) :
    Table.put (row a) (as.map row) = (MemoryStore.put same a as).map row := by
  induction as with
  | nil => rfl
  | cons b rest ih =>
    have key := keys b List.mem_cons_self
    rw [List.map_cons, Table.put, MemoryStore.put]
    split
    · next h =>
      rw [if_pos (key.mpr h), Row.with_eq h, zones b List.mem_cons_self (key.mpr h), List.map_cons]
    · next h =>
      rw [if_neg fun hb => h (key.mp hb), List.map_cons,
        ih (fun c hc => keys c (List.mem_cons_of_mem b hc))
          fun c hc => zones c (List.mem_cons_of_mem b hc)]

/-- The row of an item is saved, and takes the place the item takes, if an id
is used for one key only. -/
theorem Table.upsert_map {same : α → Bool} {a : α}
    (keys : ∀ b ∈ as, same b = true ↔ (row b).key = (row a).key)
    (ids : ∀ b ∈ as, (row b).id = (row a).id → same b = true)
    (zones : ∀ b ∈ as, same b = true → (row b).zone = (row a).zone) :
    Table.upsert (as.map row) (row a) = some ((MemoryStore.put same a as).map row) := by
  rw [Table.upsert_of_free, Table.put_map keys zones]
  intro r hr clash
  obtain ⟨b, hb, rfl⟩ := List.mem_map.mp hr
  exact (keys b hb).mp (ids b hb clash)

/-- The row that is found is that of the item that is found. -/
theorem find?_rows {p : Row → Bool} {q : α → Bool} (same : ∀ a ∈ as, p (row a) = q a) :
    (as.map row).find? p = (as.find? q).map row := by
  rw [List.find?_map]
  exact congrArg (Option.map row) (List.find?_congr same)

/-- If the rows have keys in the order of the keys of the items, the row of
the greatest key is that of the item of the greatest key. -/
theorem argmax_map {β β' : Type} [LinearOrder β] [dec : DecidableLT β] [LinearOrder β'] {key : α → β}
    {key' : Row → β'} (order : ∀ a ∈ as, ∀ b ∈ as, key' (row a) < key' (row b) ↔ key a < key b) :
    (as.map row).argmax key' = (as.argmax key).map row := by
  obtain rfl : dec = LinearOrder.toDecidableLT := Subsingleton.elim ..
  induction as with
  | nil => rfl
  | cons a rest ih =>
    rw [List.map_cons, List.argmax_cons, List.argmax_cons,
      ih fun b hb c hc => order b (List.mem_cons_of_mem a hb) c (List.mem_cons_of_mem a hc)]
    cases found : rest.argmax key with
    | none => rfl
    | some b =>
      have hb := List.mem_cons_of_mem a (List.argmax_mem found)
      simp only [Option.map_some, order a List.mem_cons_self b hb]
      split <;> rfl

/-- A query answers with the item whose row it found. -/
theorem Store.queried_row (operation table : String) {found : Option α}
    (back : ∀ a ∈ found, read (row a) = .ok a) :
    (Store.queried operation table read (found.map row)).result = .ok found := by
  cases found with
  | none => rfl
  | some a =>
    change (read (row a)).map some = _
    rw [back a rfl]
    rfl

end Items

theorem key_eq_iff {user goal user' goal' : Id} (hu : user.Fits) (hg : goal.Fits) (hu' : user'.Fits)
    (hg' : goal'.Fits) (date date' : Date) :
    (toString user, toString goal, toString date) = (toString user', toString goal', toString date') ↔
      user = user' ∧ goal = goal' ∧ date = date' := by
  rw [Prod.mk.injEq, Prod.mk.injEq]
  constructor
  · rintro ⟨users, goals, dates⟩
    exact ⟨hu.eq_of_text hu' users, hg.eq_of_text hg' goals, Date.eq_of_text dates⟩
  · rintro ⟨rfl, rfl, rfl⟩
    exact ⟨rfl, rfl, rfl⟩

theorem MemoryStore.isDay_iff {d e : Day} : isDay d.user d.goal d.date e = true ↔ e.SameKey d := by
  simp [isDay, Day.SameKey, and_assoc]

theorem MemoryStore.isWeek_iff {w x : Week} :
    isWeek w.user w.goal w.weekStart x = true ↔ x.SameKey w := by
  simp [isWeek, Week.SameKey, and_assoc]

/-! ## Tables that copy the memory -/

open TableStore (rowOfDay rowOfWeek)

/-- The tables hold the rows of what the memory holds, all of which was
saved by one of the calls, and know the zones of a directory. -/
structure Copies (dir : Zone.Directory) (calls : List StoreCall) (m : MemoryStore) (t : TableStore) :
    Prop where
  directory : t.directory = dir
  days : t.days = m.days.map rowOfDay
  weeks : t.weeks = m.weeks.map rowOfWeek
  savedDays : ∀ d ∈ m.days, .saveDay d ∈ calls
  savedWeeks : ∀ w ∈ m.weeks, .saveWeek w ∈ calls

namespace Copies

variable {dir : Zone.Directory} {calls : List StoreCall} {m : MemoryStore} {t : TableStore}

theorem empty (dir : Zone.Directory) (calls : List StoreCall) :
    Copies dir calls {} { directory := dir } := ⟨rfl, rfl, rfl, by simp, by simp⟩

theorem findDay_eq (h : Copies dir calls m t) (orderly : Orderly dir calls) {user goal : Id} (hu : user.Fits)
    (hg : goal.Fits) (date : Date) :
    ((Store.tables t).findDay user goal date).result = .ok (m.findDay user goal date) := by
  have found : t.days.find? user goal date = (m.findDay user goal date).map rowOfDay := by
    rw [Table.find?, h.days]
    refine find?_rows fun d hd => ?_
    obtain ⟨-, fits, -⟩ := orderly.fits _ (h.savedDays d hd)
    rw [Bool.eq_iff_iff, beq_iff_eq]
    refine (key_eq_iff fits.user fits.goal hu hg d.date date).trans ?_
    simp [MemoryStore.isDay, and_assoc]
  rw [Store.findDay, found, h.directory]
  refine Store.queried_row _ _ fun d hd => ?_
  obtain ⟨made, fits, -⟩ := orderly.fits _ (h.savedDays d (MemoryStore.mem_of_findDay hd))
  exact TableStore.dayOfRow_rowOfDay made fits

theorem findWeek_eq (h : Copies dir calls m t) (orderly : Orderly dir calls) {user goal : Id} (hu : user.Fits)
    (hg : goal.Fits) (weekStart : Date) :
    ((Store.tables t).findWeek user goal weekStart).result = .ok (m.findWeek user goal weekStart) := by
  have found : t.weeks.find? user goal weekStart = (m.findWeek user goal weekStart).map rowOfWeek := by
    rw [Table.find?, h.weeks]
    refine find?_rows fun w hw => ?_
    obtain ⟨-, fits⟩ := orderly.fits _ (h.savedWeeks w hw)
    rw [Bool.eq_iff_iff, beq_iff_eq]
    refine (key_eq_iff fits.user fits.goal hu hg w.weekStart weekStart).trans ?_
    simp [MemoryStore.isWeek, and_assoc]
  rw [Store.findWeek, found, h.directory]
  refine Store.queried_row _ _ fun w hw => ?_
  obtain ⟨made, fits⟩ := orderly.fits _ (h.savedWeeks w (MemoryStore.mem_of_findWeek hw))
  exact TableStore.weekOfRow_rowOfWeek made fits

theorem findLast_eq (h : Copies dir calls m t) (orderly : Orderly dir calls) {user goal : Id} (hu : user.Fits)
    (hg : goal.Fits) : ((Store.tables t).findLast user goal).result = .ok (m.findLast user goal) := by
  have plain : ∀ d ∈ m.days, d.date.Plain := fun d hd => (orderly.fits _ (h.savedDays d hd)).2.2
  have kept : t.days.rowsOf user goal = (m.daysOf user goal).map rowOfDay := by
    rw [Table.rowsOf, h.days, List.filter_map, MemoryStore.daysOf]
    refine congrArg (List.map rowOfDay) (List.filter_congr fun d hd => ?_)
    obtain ⟨-, fits, -⟩ := orderly.fits _ (h.savedDays d hd)
    have users : toString d.user = toString user ↔ d.user = user :=
      ⟨fits.user.eq_of_text hu, fun h => by rw [h]⟩
    have goals : toString d.goal = toString goal ↔ d.goal = goal :=
      ⟨fits.goal.eq_of_text hg, fun h => by rw [h]⟩
    rw [Bool.eq_iff_iff]
    simp only [Function.comp_apply, Bool.and_eq_true, beq_iff_eq]
    exact and_congr users goals
  have found : t.days.findLast? user goal = (m.findLast user goal).map rowOfDay := by
    rw [Table.findLast?_eq_argmax, kept, MemoryStore.findLast_eq_argmax]
    refine argmax_map fun d hd e he => ?_
    exact Date.toString_lt_iff (plain d (List.mem_of_mem_filter hd)) (plain e (List.mem_of_mem_filter he))
  rw [Store.findLast, found, h.directory]
  refine Store.queried_row _ _ fun d hd => ?_
  have last := MemoryStore.isLast_findLast m user goal
  rw [Option.mem_def.mp hd] at last
  obtain ⟨made, fits, -⟩ := orderly.fits _ (h.savedDays d (MemoryStore.mem_of_findDay last.1))
  exact TableStore.dayOfRow_rowOfDay made fits

/-- A saved day takes the same place in both stores. -/
theorem saveDay (h : Copies dir calls m t) (orderly : Orderly dir calls) {d : Day} (hc : .saveDay d ∈ calls) :
    ∃ t', ((Store.tables t).saveDay d).result = .ok (.tables t') ∧ Copies dir calls (m.saveDay d) t' := by
  obtain ⟨-, fits, -⟩ := orderly.fits _ hc
  have saved : t.days.upsert (rowOfDay d) = some ((m.saveDay d).days.map rowOfDay) := by
    have others (e : Day) (he : e ∈ m.days) : e.Fits dir := (orderly.fits _ (h.savedDays e he)).2.1
    rw [h.days]
    refine Table.upsert_map (fun e he => ?_) (fun e he ids => ?_) fun e he same => ?_
    · have texts := key_eq_iff (others e he).user (others e he).goal fits.user fits.goal e.date d.date
      exact MemoryStore.isDay_iff.trans texts.symm
    · have same := (others e he).id.eq_of_text fits.id ids
      exact MemoryStore.isDay_iff.mpr (orderly.dayKey (h.savedDays e he) hc same)
    · exact congrArg Zone.name
        (orderly.dayZone (h.savedDays e he) hc (MemoryStore.isDay_iff.mp same))
  refine ⟨{ t with days := (m.saveDay d).days.map rowOfDay }, by rw [Store.saveDay, saved],
    h.directory, rfl, h.weeks, fun e he => ?_, h.savedWeeks⟩
  rcases MemoryStore.mem_saveDay he with rfl | he
  · exact hc
  · exact h.savedDays e he

/-- A saved week takes the same place in both stores. -/
theorem saveWeek (h : Copies dir calls m t) (orderly : Orderly dir calls) {w : Week}
    (hc : .saveWeek w ∈ calls) : ∃ t', ((Store.tables t).saveWeek w).result = .ok (.tables t') ∧
      Copies dir calls (m.saveWeek w) t' := by
  obtain ⟨-, fits⟩ := orderly.fits _ hc
  have saved : t.weeks.upsert (rowOfWeek w) = some ((m.saveWeek w).weeks.map rowOfWeek) := by
    have others (x : Week) (hx : x ∈ m.weeks) : x.Fits dir := (orderly.fits _ (h.savedWeeks x hx)).2
    rw [h.weeks]
    refine Table.upsert_map (fun x hx => ?_) (fun x hx ids => ?_) fun x hx same => ?_
    · have texts := key_eq_iff (others x hx).user (others x hx).goal fits.user fits.goal x.weekStart
        w.weekStart
      exact MemoryStore.isWeek_iff.trans texts.symm
    · have same := (others x hx).id.eq_of_text fits.id ids
      exact MemoryStore.isWeek_iff.mpr (orderly.weekKey (h.savedWeeks x hx) hc same)
    · exact congrArg Zone.name
        (orderly.weekZone (h.savedWeeks x hx) hc (MemoryStore.isWeek_iff.mp same))
  refine ⟨{ t with weeks := (m.saveWeek w).weeks.map rowOfWeek }, by rw [Store.saveWeek, saved],
    h.directory, h.days, rfl, h.savedDays, fun x hx => ?_⟩
  rcases MemoryStore.mem_saveWeek hx with rfl | hx
  · exact hc
  · exact h.savedWeeks x hx

/-- A call has the same answer in both stores, and afterwards the tables
copy the memory again. -/
theorem call (h : Copies dir calls m t) (orderly : Orderly dir calls) {c : StoreCall} (hc : c ∈ calls) :
    ∃ answer m' t', (Store.memory m).call c = (.ok answer, .memory m') ∧
      (Store.tables t).call c = (.ok answer, .tables t') ∧ Copies dir calls m' t' := by
  have fits := orderly.fits c hc
  cases c with
  | findLast user goal =>
    exact ⟨_, m, t, rfl, by rw [Store.call, h.findLast_eq orderly fits.1 fits.2]; rfl, h⟩
  | findDay user goal date =>
    exact ⟨_, m, t, rfl, by rw [Store.call, h.findDay_eq orderly fits.1 fits.2]; rfl, h⟩
  | findWeek user goal weekStart =>
    exact ⟨_, m, t, rfl, by rw [Store.call, h.findWeek_eq orderly fits.1 fits.2]; rfl, h⟩
  | saveDay d =>
    obtain ⟨t', saved, copies⟩ := h.saveDay orderly hc
    exact ⟨_, _, t', rfl, by rw [Store.call, saved]; rfl, copies⟩
  | saveWeek w =>
    obtain ⟨t', saved, copies⟩ := h.saveWeek orderly hc
    exact ⟨_, _, t', rfl, by rw [Store.call, saved]; rfl, copies⟩

/-- Calls have the same answers in both stores. -/
theorem answers (h : Copies dir calls m t) (orderly : Orderly dir calls) {rest : List StoreCall}
    (hrest : ∀ c ∈ rest, c ∈ calls) : ∃ answers : List StoreAnswer,
      (Store.memory m).answers rest = answers.map .ok ∧ (Store.tables t).answers rest = answers.map .ok := by
  induction rest generalizing m t with
  | nil => exact ⟨[], rfl, rfl⟩
  | cons c rest ih =>
    obtain ⟨answer, m', t', inMemory, inTables, copies⟩ := h.call orderly (hrest c List.mem_cons_self)
    obtain ⟨answers, others, others'⟩ := ih copies fun b hb => hrest b (List.mem_cons_of_mem c hb)
    refine ⟨answer :: answers, ?_, ?_⟩
    · rw [Store.answers, inMemory, others, List.map_cons]
    · rw [Store.answers, inTables, others', List.map_cons]

end Copies

/-- Orderly calls to an empty store all succeed, and have the same answers
whether it keeps its items in memory or in tables, whichever zones the tables
know. -/
theorem Store.answers_agree {dir : Zone.Directory} {calls : List StoreCall}
    (orderly : Orderly dir calls) : ∃ answers : List StoreAnswer,
      (Store.memory {}).answers calls = answers.map .ok ∧
      (Store.tables { directory := dir }).answers calls = answers.map .ok :=
  (Copies.empty dir calls).answers orderly fun _ => id

namespace Sample

/-- A day that is saved twice, under a new id the second time, a week, and
queries for both. -/
def storeCalls : List StoreCall :=
  [.saveDay (utcDay ⟨1⟩), .saveDay (utcDay ⟨4⟩), .saveWeek (utcWeek ⟨1⟩), .findLast ⟨2⟩ ⟨3⟩,
    .findWeek ⟨2⟩ ⟨3⟩ (utcWeek ⟨1⟩).weekStart]

theorem orderly_storeCalls : Orderly .standard storeCalls := by
  have days {d : Day} (h : .saveDay d ∈ storeCalls) : d = utcDay ⟨1⟩ ∨ d = utcDay ⟨4⟩ := by
    simpa [storeCalls] using h
  have weeks {w : Week} (h : .saveWeek w ∈ storeCalls) : w = utcWeek ⟨1⟩ := by
    simpa [storeCalls] using h
  have ids : (⟨2⟩ : Id).Fits ∧ (⟨3⟩ : Id).Fits := ⟨fits_small (by decide), fits_small (by decide)⟩
  have plain : (utcDay ⟨1⟩).date.Plain := by decide
  have day {n : Nat} (h : n < 10) : StoreCall.Fits .standard (.saveDay (utcDay ⟨n⟩)) :=
    ⟨made_utcDay ⟨n⟩, fits_emptyDay h utc_mem_standard .., plain⟩
  have week : StoreCall.Fits .standard (.saveWeek (utcWeek ⟨1⟩)) := ⟨.create .., fits_utcWeek (by decide)⟩
  refine ⟨?_, fun hd he _ => ?_, fun hd he _ => ?_, fun hw hx _ => ?_, fun hw hx _ => ?_⟩
  · simp only [storeCalls, List.forall_mem_cons]
    exact ⟨day (by decide), day (by decide), week, ids, ids, by simp⟩
  · rcases days hd with rfl | rfl <;> rcases days he with rfl | rfl <;> exact ⟨rfl, rfl, rfl⟩
  · rcases days hd with rfl | rfl <;> rcases days he with rfl | rfl <;> rfl
  · rw [weeks hw, weeks hx]
    exact ⟨rfl, rfl, rfl⟩
  · rw [weeks hw, weeks hx]

theorem stores_answer_alike : (Store.tables {}).answers storeCalls =
    [.saved, .saved, .saved, .day (some (utcDay ⟨4⟩)), .week (some (utcWeek ⟨1⟩))].map .ok := by
  obtain ⟨answers, inMemory, inTables⟩ := Store.answers_agree orderly_storeCalls
  rw [inTables, ← inMemory]
  rfl

end Sample
end UsageDiary
