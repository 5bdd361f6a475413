import Mathlib.Data.List.Forall2
import Mathlib.Data.List.Sort
import UsageDiary.Analysis
import UsageDiary.Proofs.Calendar.Order

/-!
# Uses in order

The uses of a report are put in order of their starts, those of one start in
the order given: this is Mathlib's insertion sort by the start
(`Analyzer.inOrder_eq_insertionSort`), and the only such order
(`Analyzer.arranged_iff`). So uses of different starts may be given in any
order (`Analyzer.inOrder_of_perm`), and what is true of uses one by one stays
true of them in order (`Analyzer.forall₂_inOrder`).
-/

namespace UsageDiary.Analyzer

variable {us us' : List AppUse} {u v : AppUse}

/-- A use starts no later than another one. -/
def NoLater (u v : AppUse) : Prop := u.starts ≤ v.starts

instance : DecidableRel NoLater := fun u v => inferInstanceAs (Decidable (u.starts ≤ v.starts))

instance : Std.Total NoLater := ⟨fun _ _ => le_total _ _⟩

instance : IsTrans AppUse NoLater := ⟨fun _ _ _ => le_trans⟩

theorem inOrder_eq_insertionSort (us : List AppUse) : inOrder us = us.insertionSort NoLater := by
  have inserts (u : AppUse) (us : List AppUse) : insertUse u us = us.orderedInsert NoLater u := by
    induction us with
    | nil => rfl
    | cons v rest ih => rw [insertUse, List.orderedInsert_cons, ih]; rfl
  rw [inOrder, List.insertionSort]
  exact congrArg (us.foldr · []) (funext₂ inserts)

theorem mem_inOrder : u ∈ inOrder us ↔ u ∈ us := by
  rw [inOrder_eq_insertionSort, List.mem_insertionSort]

/-- These are uses in order of their starts, those of one start in the order
given. -/
structure Arranged (uses ordered : List AppUse) : Prop where
  perm : ordered.Perm uses
  sorted : ordered.Pairwise NoLater
  stable : ∀ t, ordered.filter (·.starts = t) = uses.filter (·.starts = t)

theorem arranged_inOrder (uses : List AppUse) : Arranged uses (inOrder uses) := by
  rw [inOrder_eq_insertionSort]
  refine ⟨List.perm_insertionSort .., List.pairwise_insertionSort .., fun t => ?_⟩
  -- those of one start are in order as they are given, and so are not moved past each other
  have alike : (uses.filter (·.starts = t)).Pairwise NoLater := by
    refine List.pairwise_of_forall_mem_list fun u hu v hv => ?_
    have hu : u.starts = t := by simpa using (List.mem_filter.mp hu).2
    have hv : v.starts = t := by simpa using (List.mem_filter.mp hv).2
    exact le_of_eq (hu.trans hv.symm)
  have kept := (List.sublist_insertionSort alike List.filter_sublist).filter (·.starts = t)
  rw [List.filter_filter, List.filter_congr fun u _ => Bool.and_self _] at kept
  exact (kept.eq_of_length ((List.perm_insertionSort NoLater uses).filter _).length_eq.symm).symm

/-- The first of sorted uses starts no later than any of them. -/
theorem noLater_of_mem (sorted : (u :: us).Pairwise NoLater) (h : v ∈ u :: us) : NoLater u v := by
  rcases List.mem_cons.mp h with rfl | h
  · exact le_refl _
  · exact (List.pairwise_cons.mp sorted).1 v h

theorem mem_of_filter (same : ∀ t, us.filter (·.starts = t) = us'.filter (·.starts = t)) (h : u ∈ us) :
    u ∈ us' :=
  List.mem_of_mem_filter (same u.starts ▸ List.mem_filter.mpr ⟨h, by simp⟩)

/-- Sorted uses are the same if those of each start are. -/
theorem eq_of_filter (sorted : us.Pairwise NoLater) (sorted' : us'.Pairwise NoLater)
    (same : ∀ t, us.filter (·.starts = t) = us'.filter (·.starts = t)) : us = us' := by
  induction us generalizing us' with
  | nil =>
    exact (List.eq_nil_iff_forall_not_mem.mpr fun u hu =>
      absurd (mem_of_filter (fun t => (same t).symm) hu) List.not_mem_nil).symm
  | cons u rest ih =>
    cases us' with
    | nil => exact absurd (mem_of_filter same List.mem_cons_self) List.not_mem_nil
    | cons v rest' =>
      have starts : v.starts = u.starts :=
        le_antisymm (noLater_of_mem sorted' (mem_of_filter same List.mem_cons_self))
          (noLater_of_mem sorted (mem_of_filter (fun t => (same t).symm) List.mem_cons_self))
      have heads := same u.starts
      rw [List.filter_cons_of_pos (by simp), List.filter_cons_of_pos (by simp [starts])] at heads
      obtain ⟨rfl, -⟩ := List.cons.inj heads
      refine congrArg (u :: ·) (ih sorted.of_cons sorted'.of_cons fun t => ?_)
      have both := same t
      simp only [List.filter_cons] at both
      split at both
      · exact (List.cons.inj both).2
      · exact both

/-- There is one order of uses by their starts that keeps those of one start
as they are given. -/
theorem arranged_iff : Arranged us us' ↔ us' = inOrder us := by
  refine ⟨fun h => ?_, fun h => h ▸ arranged_inOrder us⟩
  have own := arranged_inOrder us
  exact eq_of_filter h.sorted own.sorted fun t => (h.stable t).trans (own.stable t).symm

/-- Uses of different starts come to the same order however they are given. -/
theorem inOrder_of_perm (h : us'.Perm us) (differ : us.Pairwise fun u v => u.starts ≠ v.starts) :
    inOrder us' = inOrder us := by
  have own := arranged_inOrder us'
  refine arranged_iff.mp ⟨own.perm.trans h, own.sorted, fun t => (own.stable t).trans ?_⟩
  have symm : Std.Symm fun u v : AppUse => u.starts ≠ v.starts := ⟨fun _ _ => Ne.symm⟩
  -- at most one use starts then
  refine List.Perm.eq_of_pairwise (fun u v hu hv apart _ => absurd ?_ apart)
    ((h.symm.pairwise differ Ne.symm).filter _) (differ.filter _) (h.filter _)
  have hu : u.starts = t := by simpa using (List.mem_filter.mp hu).2
  have hv : v.starts = t := by simpa using (List.mem_filter.mp hv).2
  exact hu.trans hv.symm

/-- Uses that are related one by one, by a relation that keeps the order of
their starts, are so in order. -/
theorem forall₂_inOrder {rel : AppUse → AppUse → Prop}
    (keeps : ∀ {u u' v v'}, rel u u' → rel v v' → (u.starts ≤ v.starts ↔ u'.starts ≤ v'.starts))
    (h : us.Forall₂ rel us') : (inOrder us).Forall₂ rel (inOrder us') := by
  have inserts {u u' : AppUse} (hu : rel u u') {sorted sorted' : List AppUse}
      (hs : sorted.Forall₂ rel sorted') : (insertUse u sorted).Forall₂ rel (insertUse u' sorted') := by
    induction hs with
    | nil => exact .cons hu .nil
    | @cons v v' _ _ hv hrest ih =>
      by_cases le : u.starts ≤ v.starts
      · rw [insertUse, insertUse, if_pos le, if_pos ((keeps hu hv).mp le)]
        exact .cons hu (.cons hv hrest)
      · rw [insertUse, insertUse, if_neg le, if_neg (mt (keeps hu hv).mpr le)]
        exact .cons hv ih
  exact List.rel_foldr (R := rel) (P := List.Forall₂ rel) (fun _ _ hu _ _ hs => inserts hu hs) .nil h

end UsageDiary.Analyzer
