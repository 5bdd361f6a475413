import UsageDiary.Proofs.Day.Labels
import UsageDiary.Proofs.Ledger.Basic

/-!
# Recording in order of starts and of creation

What an event does to a day in order of its activities' starts (`Applied`)
is what it does to the ledger's day, arranged (`Applied.record?`). The
activity that an event extends is found by its id, so this needs the ids of
a day's activities to be distinct (`Day.Labelled`).
-/

namespace UsageDiary

variable {s : Settings} {d : Day} {opened : Bool} {e : UsageEvent} {next next' : Nat} {r : Merged}

/-! ## The two ways to change a day -/

theorem Day.mem_of_latest? {device : Option Id} {a : Activity} (h : d.latest? device = some a) :
    a ∈ d.activities := by
  rw [← last?_arranged] at h
  exact (perm_inOrder d.activities).mem_iff.mp (Day.mem_of_last? h)

theorem Day.add_arranged {a : Activity} {d' : Day} (h : d.arranged.add a = .ok d') :
    d' = ({ d with activities := d.activities ++ [a] } : Day).arranged := by
  unfold add at h
  split at h
  · cases h
    simp only [arranged, inOrder_append]
  · cases h

/-- Extending an activity of a day in order puts the longer one in its place. -/
theorem Day.extend_arranged (labelled : d.Labelled next) {a b : Activity} {ends : Instant} {d' : Day}
    (ha : a ∈ d.activities) (grows : a.ends < ends) (h : d.arranged.extend a.id ends = .ok (d', b)) :
    b = { a with ends := ends } ∧
      d' = ({ d with activities := d.activities.map fun b =>
        if b.id = a.id then { a with ends := ends } else b } : Day).arranged := by
  have perm := perm_inOrder d.activities
  have arranged : d.arranged.Labelled next := labelled.perm perm
  have mem : a ∈ d.arranged.activities := perm.mem_iff.mpr ha
  obtain ⟨longer, -, rfl⟩ := Day.extend_eq arranged mem grows h
  have starts (b : Activity) : (if b.id = a.id then b.extendTo ends else b).starts = b.starts := by
    split
    · exact (b.grows_extendTo ends).starts
    · rfl
  have same := map_inOrder starts d.activities
  rw [labelled.map_extendTo ha grows] at same
  rw [← arranged.map_extendTo mem grows]
  exact ⟨longer, congrArg (fun as => { d with activities := as }) same⟩

/-! ## Recording -/

/-- What is decided of a day in order, and what the ledger does. -/
theorem Ledger.record?_cases (measured : s.Measured) (d : Day) (opened : Bool) (e : UsageEvent)
    (next : Nat) :
    (s.decide? d.arranged e = some .create ∧
      record? s d opened e next = create? s d opened e next) ∨
    ∃ a, d.latest? e.device = some a ∧
      (s.decide? d.arranged e = some (.extend a.id) ∧ a.ends < e.ends ∧
        record? s d opened e next = some (⟨.extended { a with ends := e.ends },
          { d with activities := d.activities.map fun b =>
            if b.id = a.id then { a with ends := e.ends } else b }⟩, next) ∨
      s.decide? d.arranged e = some (.absorb a) ∧
        record? s d opened e next = some (⟨.absorbed a, d⟩, next)) := by
  obtain ⟨combine, hcombine⟩ := measured.combine
  obtain ⟨skip, hskip⟩ := measured.skip
  unfold Settings.decide? record?
  rw [Day.last?_arranged]
  cases d.latest? e.device with
  | none => exact .inl ⟨rfl, by simp [hcombine, hskip]⟩
  | some a =>
    simp only [hcombine, hskip, Option.bind_eq_bind, Option.bind_some]
    generalize e.starts.since a.ends = gap
    generalize e.ends.since a.ends = growth
    by_cases before : e.starts < a.starts
    · exact .inl ⟨if_pos before, if_pos (.inl before)⟩
    rw [if_neg before]
    by_cases apart : combine < gap
    · exact .inl ⟨if_pos apart, if_pos (.inr apart)⟩
    rw [if_neg apart, if_neg (not_or.mpr ⟨before, apart⟩)]
    refine .inr ⟨a, rfl, ?_⟩
    by_cases longer : a.ends < e.ends
    · rw [if_pos longer]
      by_cases enough : skip ≤ growth
      · exact .inl ⟨if_pos enough, longer, if_pos ⟨longer, enough⟩⟩
      · exact .inr ⟨if_neg enough, if_neg fun h => enough h.2⟩
    · exact .inr ⟨if_neg longer, if_neg fun h => longer h.1⟩

/-- The ledger records an event as it is applied to the day in order. -/
theorem Applied.record? (h : Applied s d.arranged opened e next r next') (measured : s.Measured)
    (labelled : d.Labelled next) :
    ∃ r₀, Ledger.record? s d opened e next = some (r₀, next') ∧ r = r₀.arranged := by
  rcases Ledger.record?_cases measured d opened e next with
    ⟨decided, recorded⟩ | ⟨a, latest, ⟨decided, longer, recorded⟩ | ⟨decided, recorded⟩⟩
  · rw [recorded]
    cases h with
    | @create starts ends _ _ stretched added =>
      have created : Ledger.create? s d opened e next = some (⟨.created
          ⟨⟨next⟩, starts, ends, e.device, e.app⟩ opened, { d with activities :=
            d.activities ++ [⟨⟨next⟩, starts, ends, e.device, e.app⟩] }⟩, next + 1) := by
        unfold Ledger.create?
        rw [show s.stretch? d e = some (starts, ends) from stretched]
        rfl
      rw [Day.add_arranged added]
      exact ⟨_, created, rfl⟩
    | extend decided' => cases decided.symm.trans decided'
    | absorb decided' => cases decided.symm.trans decided'
  · rw [recorded]
    cases h with
    | create decided' => cases decided.symm.trans decided'
    | extend decided' extended =>
      rw [decided] at decided'
      cases decided'
      obtain ⟨hb, hd'⟩ := Day.extend_arranged labelled (Day.mem_of_latest? latest) longer extended
      rw [hb, hd']
      exact ⟨_, rfl, rfl⟩
    | absorb decided' => cases decided.symm.trans decided'
  · rw [recorded]
    cases h with
    | create decided' => cases decided.symm.trans decided'
    | extend decided' => cases decided.symm.trans decided'
    | absorb decided' =>
      rw [decided] at decided'
      cases decided'
      exact ⟨_, rfl, rfl⟩

end UsageDiary
