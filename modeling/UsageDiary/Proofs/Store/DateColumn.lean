import UsageDiary.Proofs.Store.Rows
import UsageDiary.Proofs.Text.Octets

/-!
# The column of dates

Rows keep their dates as texts, and the last row of a user and goal is the
one whose text has the greatest octets (`Table.octets_findLast?`). Texts of
dates of the years 0 to 9999 sort by their octets as the dates do
(`Date.octets_lt_iff`), so in a table of such dates, which saving keeps one
(`Table.Dated.upsert`), the last row is that of the latest date
(`Table.isLatest_findLast?`). It is the only such row, if no two rows have
the same key (`Table.IsLatest.eq`). Main statement:
`TableStore.dates_read_back_in_order`.
-/

namespace UsageDiary

open TableStore (readDate readDate_toString)

/-- Texts of dates of the years 0 to 9999 sort by their octets as the dates
do. -/
theorem Date.octets_lt_iff {d e : Date} (hd : d.Plain) (he : e.Plain) :
    Octets.ofString (toString d) < Octets.ofString (toString e) ↔ d < e :=
  Octets.ofString_lt_iff.trans (toString_lt_iff hd he)

/-- In other years a text starts with a sign, which sorts before every digit. -/
example : Date.epoch < Date.last ∧
    Octets.ofString (toString Date.last) < Octets.ofString (toString Date.epoch) := by
  decide +kernel

namespace Table

variable {t t' : Table} {user goal : Id} {r s : Row} {d : Date}

theorem mem_rowsOf : r ∈ t.rowsOf user goal ↔ r ∈ t ∧ r.user = toString user ∧ r.goal = toString goal := by
  simp [rowsOf]

/-- The last row is one of the greatest octets. -/
theorem octets_findLast? (last : t.findLast? user goal = some r) (hs : s ∈ t.rowsOf user goal) :
    ¬ Octets.ofString r.date < Octets.ofString s.date := by
  rw [findLast?_eq_argmax] at last
  rw [Octets.ofString_lt_iff]
  exact List.not_lt_of_mem_argmax hs last

/-! ## Tables of dates -/

/-- Every row has the text of a date of the years 0 to 9999. -/
def Dated (t : Table) : Prop := ∀ r ∈ t, ∃ d : Date, d.Plain ∧ r.date = toString d

/-- A row that is saved brings its date, the others keep theirs. -/
theorem date_of_mem_put (h : s ∈ put r t) : s.date = r.date ∨ ∃ s' ∈ t, s.date = s'.date := by
  induction t with
  | nil => exact .inl (congrArg Row.date (List.mem_singleton.mp h))
  | cons a rest ih =>
    rw [put] at h
    split at h
    · rcases List.mem_cons.mp h with rfl | h
      · exact .inr ⟨a, List.mem_cons_self, rfl⟩
      · exact .inr ⟨s, List.mem_cons_of_mem a h, rfl⟩
    · rcases List.mem_cons.mp h with rfl | h
      · exact .inr ⟨s, List.mem_cons_self, rfl⟩
      · rcases ih h with same | ⟨s', hs', same⟩
        · exact .inl same
        · exact .inr ⟨s', List.mem_cons_of_mem a hs', same⟩

namespace Dated

theorem nil : Dated [] := by simp [Dated]

theorem upsert (h : t.Dated) (plain : d.Plain) (date : r.date = toString d)
    (saved : t.upsert r = some t') : t'.Dated := by
  unfold Table.upsert at saved
  split at saved
  · cases saved
  · cases saved
    intro s hs
    rcases date_of_mem_put hs with same | ⟨s', hs', same⟩
    · exact ⟨d, plain, same.trans date⟩
    · rw [same]
      exact h s' hs'

theorem rowsOf (h : t.Dated) (user goal : Id) : (t.rowsOf user goal).Dated :=
  fun r hr => h r (mem_rowsOf.mp hr).1

/-- A row of a table of dates has the text of the date it is read as. -/
theorem date_eq (h : t.Dated) (hr : r ∈ t) (read : readDate r.date = .ok d) : r.date = toString d := by
  obtain ⟨e, -, date⟩ := h r hr
  rw [date, readDate_toString] at read
  cases read
  exact date

end Dated

/-! ## The latest row -/

/-- The latest row of a user and goal: a row of theirs that is read as a
date, and none of theirs as a later one. None, where they have no rows. -/
def IsLatest (t : Table) (user goal : Id) : Option Row → Prop
  | none => t.rowsOf user goal = []
  | some r => r ∈ t.rowsOf user goal ∧ ∃ d, readDate r.date = .ok d ∧
      ∀ s ∈ t.rowsOf user goal, ∃ e, readDate s.date = .ok e ∧ e ≤ d

/-- The last row that is found is the latest. -/
theorem isLatest_findLast? (dated : (t.rowsOf user goal).Dated) :
    t.IsLatest user goal (t.findLast? user goal) := by
  cases last : t.findLast? user goal with
  | none =>
    rw [findLast?_eq_argmax] at last
    exact List.argmax_eq_none.mp last
  | some r =>
    have mem : r ∈ t.rowsOf user goal := by
      rw [findLast?_eq_argmax] at last
      exact List.argmax_mem last
    obtain ⟨d, hd, date⟩ := dated r mem
    refine ⟨mem, d, by rw [date, readDate_toString], fun s hs => ?_⟩
    obtain ⟨e, he, date'⟩ := dated s hs
    refine ⟨e, by rw [date', readDate_toString], not_lt.mp fun lt => octets_findLast? last hs ?_⟩
    rw [date, date']
    exact (Date.octets_lt_iff hd he).mpr lt

/-- There is one latest row. -/
theorem IsLatest.eq (dated : (t.rowsOf user goal).Dated) (unique : (t.map Row.key).Nodup)
    {a b : Option Row} (ha : t.IsLatest user goal a) (hb : t.IsLatest user goal b) : a = b := by
  match a, b, ha, hb with
  | none, none, _, _ => rfl
  | none, some s, ha, hb => exact absurd (ha ▸ hb.1) List.not_mem_nil
  | some r, none, ha, hb => exact absurd (hb ▸ ha.1) List.not_mem_nil
  | some r, some s, ⟨hr, d, readr, lastr⟩, ⟨hs, e, reads, lasts⟩ =>
    obtain ⟨e', reads', le⟩ := lastr s hs
    obtain ⟨d', readr', le'⟩ := lasts r hr
    cases reads.symm.trans reads'
    cases readr.symm.trans readr'
    have date : r.date = s.date := by
      rw [dated.date_eq hr readr, dated.date_eq hs reads, le_antisymm le' le]
    obtain ⟨memr, userr, goalr⟩ := mem_rowsOf.mp hr
    obtain ⟨mems, users, goals⟩ := mem_rowsOf.mp hs
    have key : r.key = s.key := by
      rw [Row.key, Row.key, userr, goalr, date, users, goals]
    rw [List.inj_on_of_nodup_map unique memr mems key]

end Table

/-- Every date is read back from its text, so different dates have different
texts, and texts of dates of the years 0 to 9999 sort by their octets as the
dates do. The last row of a user and goal is the one whose text has the
greatest octets. If their rows have dates of these years, it is their latest
row, and it is the only one if no two rows have the same key. -/
theorem TableStore.dates_read_back_in_order :
    (∀ d : Date, readDate (toString d) = .ok d) ∧
    Function.Injective (toString : Date → String) ∧
    (∀ d e : Date, d.Plain → e.Plain →
      (Octets.ofString (toString d) < Octets.ofString (toString e) ↔ d < e)) ∧
    ∀ (t : Table) (user goal : Id),
      (∀ r, t.findLast? user goal = some r → ∀ s ∈ t.rowsOf user goal,
        ¬ Octets.ofString r.date < Octets.ofString s.date) ∧
      ((t.rowsOf user goal).Dated → t.IsLatest user goal (t.findLast? user goal)) ∧
      ((t.rowsOf user goal).Dated → (t.map Row.key).Nodup → ∀ row?, t.IsLatest user goal row? →
        row? = t.findLast? user goal) := by
  refine ⟨readDate_toString, fun _ _ => Date.eq_of_text, fun _ _ => Date.octets_lt_iff,
    fun t user goal => ⟨fun _ last _ => Table.octets_findLast? last, Table.isLatest_findLast?, ?_⟩⟩
  intro dated unique row? latest
  exact latest.eq dated unique (Table.isLatest_findLast? dated)

namespace Sample

/-- The row of a day of one user and goal on which nothing was used. -/
def dateRow (id : Nat) (date : Date) : Row where
  id := toString (⟨id⟩ : Id)
  user := toString (⟨2⟩ : Id)
  goal := toString (⟨3⟩ : Id)
  date := toString date
  zone := "UTC"
  body := "[]"

theorem readDate_dateRow (id : Nat) (d : Date) : TableStore.readDate (dateRow id d).date = .ok d :=
  TableStore.readDate_toString d

/-- The last day of a year. -/
def yearEnd (year : Int) : Date := (Date.ofCivil? year 12 31).getD .epoch

/-- Rows of the ends of three years, the latest of them saved second. -/
def yearEnds : Table := [dateRow 1 (yearEnd 999), dateRow 4 (yearEnd 9999), dateRow 5 (yearEnd 1000)]

theorem dated_yearEnds : yearEnds.Dated ∧ (yearEnds.map Row.key).Nodup := by
  have first : Table.upsert [] (dateRow 1 (yearEnd 999)) = some [dateRow 1 (yearEnd 999)] := rfl
  have second : Table.upsert [dateRow 1 (yearEnd 999)] (dateRow 4 (yearEnd 9999)) =
      some [dateRow 1 (yearEnd 999), dateRow 4 (yearEnd 9999)] := by decide +kernel
  have third : Table.upsert [dateRow 1 (yearEnd 999), dateRow 4 (yearEnd 9999)]
      (dateRow 5 (yearEnd 1000)) = some yearEnds := by decide +kernel
  have one := Table.Dated.nil.upsert (d := yearEnd 999) (by decide) rfl first
  have two := one.upsert (d := yearEnd 9999) (by decide) rfl second
  refine ⟨two.upsert (d := yearEnd 1000) (by decide) rfl third, ?_⟩
  exact Table.upsert_keys third (Table.upsert_keys second (Table.upsert_keys first List.nodup_nil))

theorem latest_of_yearEnds :
    Octets.ofString (toString (yearEnd 999)) < Octets.ofString (toString (yearEnd 1000)) ∧
    ¬ Octets.ofString (toString (yearEnd 9999)) < Octets.ofString (toString (yearEnd 1000)) ∧
    yearEnds.findLast? ⟨2⟩ ⟨3⟩ = some (dateRow 4 (yearEnd 9999)) ∧
    yearEnds.IsLatest ⟨2⟩ ⟨3⟩ (some (dateRow 4 (yearEnd 9999))) := by
  obtain ⟨-, -, order, rows⟩ := TableStore.dates_read_back_in_order
  obtain ⟨greatest, latest, alone⟩ := rows yearEnds ⟨2⟩ ⟨3⟩
  obtain ⟨dated, unique⟩ := dated_yearEnds
  have mem {r : Row} (hr : r ∈ yearEnds) : r ∈ yearEnds.rowsOf ⟨2⟩ ⟨3⟩ := by
    simp only [yearEnds, List.mem_cons, List.not_mem_nil, or_false] at hr
    rcases hr with rfl | rfl | rfl <;> exact Table.mem_rowsOf.mpr ⟨by simp [yearEnds], rfl, rfl⟩
  have last : yearEnds.findLast? ⟨2⟩ ⟨3⟩ = some (dateRow 4 (yearEnd 9999)) := by
    refine (alone (dated.rowsOf _ _) unique (some _) ⟨mem (by simp [yearEnds]), yearEnd 9999,
      readDate_dateRow .., fun s hs => ?_⟩).symm
    obtain ⟨hs, -, -⟩ := Table.mem_rowsOf.mp hs
    simp only [yearEnds, List.mem_cons, List.not_mem_nil, or_false] at hs
    rcases hs with rfl | rfl | rfl <;> exact ⟨_, readDate_dateRow .., by decide⟩
  refine ⟨(order _ _ (by decide) (by decide)).mpr (by decide), ?_, last,
    last ▸ latest (dated.rowsOf _ _)⟩
  exact greatest _ last (dateRow 5 (yearEnd 1000)) (mem (by simp [yearEnds]))

end Sample
end UsageDiary
