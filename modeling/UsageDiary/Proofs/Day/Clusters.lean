import Mathlib.Data.List.Forall2
import Mathlib.Logic.Relation
import Mathlib.Order.Bounds.Basic
import UsageDiary.Proofs.Day.Tidy
import UsageDiary.Proofs.Day.Used

/-!
# Clusters of events

Events are near each other if they overlap or the time between them is
within the window for combining, and form clusters: two events are in one
cluster if a chain of events links them, each near the next one
(`Clusters`).

Events that come in order of their starts are gathered one after the other
(`Clustered`). An event is only compared with the end of the last activity.
That decides to which cluster it belongs because this end is the greatest of
its cluster: some event of the cluster ends there, which links the next
event if it is near (`Clustered.push_near`), and all of them end by then,
which keeps it apart if it is not (`Clustered.push_apart`).
-/

namespace UsageDiary

/-! ## Chains of events -/

namespace UsageEvent

/-- Two events overlap, or the time between them is within the window for
combining. -/
def Near (s : Settings) (e f : UsageEvent) : Prop :=
  e.starts.since f.ends ≤ s.combine ∧ f.starts.since e.ends ≤ s.combine

/-- A chain of these events leads from one to another, each near the next. -/
def Linked (s : Settings) (events : List UsageEvent) : UsageEvent → UsageEvent → Prop :=
  Relation.ReflTransGen fun e f => e ∈ events ∧ f ∈ events ∧ e.Near s f

/-- An event outside leap seconds does not end before it starts. -/
structure Forward (e : UsageEvent) : Prop where
  starts : e.starts.Ordinary
  ends : e.ends.Ordinary
  ordered : e.starts.nanos ≤ e.ends.nanos

variable {s : Settings} {e f : UsageEvent} {events events' : List UsageEvent}

theorem Near.symm (h : e.Near s f) : f.Near s e := And.symm h

theorem near_iff (he : e.Forward) (hf : f.Forward) : e.Near s f ↔
    e.starts.nanos ≤ f.ends.nanos + s.combine ∧ f.starts.nanos ≤ e.ends.nanos + s.combine := by
  unfold Near
  rw [Instant.since_of_ordinary he.starts hf.ends, Instant.since_of_ordinary hf.starts he.ends]
  refine and_congr ?_ ?_ <;>
  · change (_ : Int) - _ ≤ _ ↔ _
    omega

theorem Linked.mono (h : e.Linked s events f) (more : events ⊆ events') : e.Linked s events' f :=
  Relation.ReflTransGen.mono (fun _ _ step => ⟨more step.1, more step.2.1, step.2.2⟩) _ _ h

end UsageEvent

/-- An activity runs from the least start of these events to their greatest
end. -/
structure Activity.IsHull (a : Activity) (events : List UsageEvent) : Prop where
  starts : IsLeast {t | ∃ e ∈ events, e.starts = t} a.starts
  ends : IsGreatest {t | ∃ e ∈ events, e.ends = t} a.ends

namespace Activity.IsHull

variable {a : Activity} {c : List UsageEvent} {e : UsageEvent}

theorem singleton (starts : a.starts = e.starts) (ends : a.ends = e.ends) : a.IsHull [e] := by
  refine ⟨⟨⟨e, List.mem_cons_self, starts.symm⟩, ?_⟩, ⟨e, List.mem_cons_self, ends.symm⟩, ?_⟩
  all_goals
    rintro _ ⟨f, hf, rfl⟩
    cases List.mem_singleton.mp hf
  · exact le_of_eq starts
  · exact le_of_eq ends.symm

theorem exists_starts (h : a.IsHull c) : ∃ e ∈ c, e.starts = a.starts := h.starts.1

theorem exists_ends (h : a.IsHull c) : ∃ e ∈ c, e.ends = a.ends := h.ends.1

theorem le_ends (h : a.IsHull c) (he : e ∈ c) : e.ends ≤ a.ends := h.ends.2 ⟨e, he, rfl⟩

/-- With an event that starts no earlier than some other, only the end may
move. -/
theorem append (h : a.IsHull c) (later : ∀ f ∈ c, f.starts ≤ e.starts) :
    ({ a with ends := max a.ends e.ends } : Activity).IsHull (c ++ [e]) where
  starts := by
    obtain ⟨f, hf, starts⟩ := h.exists_starts
    refine ⟨⟨f, List.mem_append_left _ hf, starts⟩, ?_⟩
    rintro _ ⟨g, hg, rfl⟩
    rcases List.mem_append.mp hg with hg | hg
    · exact h.starts.2 ⟨g, hg, rfl⟩
    · cases List.mem_singleton.mp hg
      exact starts ▸ later f hf
  ends := by
    obtain ⟨f, hf, ends⟩ := h.exists_ends
    constructor
    · rcases le_total a.ends e.ends with grows | within
      · exact ⟨e, List.mem_append_right _ List.mem_cons_self, (max_eq_right grows).symm⟩
      · exact ⟨f, List.mem_append_left _ hf, ends.trans (max_eq_left within).symm⟩
    · rintro _ ⟨g, hg, rfl⟩
      rcases List.mem_append.mp hg with hg | hg
      · exact le_trans (h.le_ends hg) (le_max_left _ _)
      · cases List.mem_singleton.mp hg
        exact le_max_right _ _

end Activity.IsHull

/-- Events part into clusters: those that are linked to an event are the
events of its cluster. Activities run each from the start to the end of one
cluster. -/
structure Clusters (s : Settings) (events : List UsageEvent) (clusters : List (List UsageEvent))
    (activities : List Activity) : Prop where
  parts : clusters.flatten = events
  disjoint : clusters.Pairwise List.Disjoint
  linked_iff : ∀ c ∈ clusters, ∀ e ∈ c, ∀ f ∈ events, f ∈ c ↔ e.Linked s events f
  hulls : List.Forall₂ Activity.IsHull activities clusters

/-! ## Gathering events in order of their starts -/

/-- Clusters that were gathered so far. Each of them is linked by its own
events, and starts beyond the window for combining after the ends of the
events before it. -/
structure Clustered (s : Settings) (clusters : List (List UsageEvent)) (activities : List Activity) :
    Prop where
  hulls : List.Forall₂ Activity.IsHull activities clusters
  chained : ∀ c ∈ clusters, ∀ e ∈ c, ∀ f ∈ c, e.Linked s c f
  gaps : clusters.Pairwise fun c c' => ∀ e ∈ c, ∀ f ∈ c', e.ends.nanos + s.combine < f.starts.nanos

theorem exists_concat_of_forall₂ {α β : Type} {rel : α → β → Prop} {as : List α} {a : α} {bs : List β}
    (h : List.Forall₂ rel (as ++ [a]) bs) :
    ∃ bs' b, bs = bs' ++ [b] ∧ List.Forall₂ rel as bs' ∧ rel a b := by
  induction as generalizing bs with
  | nil =>
    obtain ⟨b, rest, hb, hrest, rfl⟩ := List.forall₂_cons_left_iff.mp h
    cases hrest
    exact ⟨[], b, rfl, .nil, hb⟩
  | cons a' as ih =>
    obtain ⟨b', rest, hb', hrest, rfl⟩ := List.forall₂_cons_left_iff.mp h
    obtain ⟨bs', b, rfl, hbs', hb⟩ := ih hrest
    exact ⟨b' :: bs', b, rfl, .cons hb' hbs', hb⟩

namespace Clustered

variable {s : Settings} {clusters : List (List UsageEvent)} {activities : List Activity}
  {c : List UsageEvent} {a : Activity} {e : UsageEvent}

theorem nil : Clustered s [] [] := ⟨.nil, nofun, .nil⟩

/-- A cluster after the others. -/
theorem concat (h : Clustered s clusters activities) (hull : a.IsHull c)
    (chained : ∀ e ∈ c, ∀ f ∈ c, e.Linked s c f)
    (gap : ∀ c' ∈ clusters, ∀ e ∈ c', ∀ f ∈ c, e.ends.nanos + s.combine < f.starts.nanos) :
    Clustered s (clusters ++ [c]) (activities ++ [a]) := by
  refine ⟨List.rel_append h.hulls (.cons hull .nil), fun c' hc' => ?_, ?_⟩
  · rcases List.mem_append.mp hc' with hc' | hc'
    · exact h.chained c' hc'
    · cases List.mem_singleton.mp hc'
      exact chained
  · refine List.pairwise_append.mpr ⟨h.gaps, List.pairwise_singleton .., fun c' hc' d hd => ?_⟩
    cases List.mem_singleton.mp hd
    exact gap c' hc'

/-- The last cluster and those before it. -/
theorem exists_last (h : Clustered s clusters (activities ++ [a])) : ∃ before c,
    clusters = before ++ [c] ∧ Clustered s before activities ∧ a.IsHull c ∧
      (∀ e ∈ c, ∀ f ∈ c, e.Linked s c f) ∧
      ∀ c' ∈ before, ∀ e ∈ c', ∀ f ∈ c, e.ends.nanos + s.combine < f.starts.nanos := by
  obtain ⟨before, c, rfl, hulls, hull⟩ := exists_concat_of_forall₂ h.hulls
  obtain ⟨gaps, -, gap⟩ := List.pairwise_append.mp h.gaps
  refine ⟨before, c, rfl, ⟨hulls, fun c' hc' => ?_, gaps⟩, hull, ?_, fun c' hc' => ?_⟩
  · exact h.chained c' (List.mem_append_left _ hc')
  · exact h.chained c (List.mem_append_right _ List.mem_cons_self)
  · exact gap c' hc' c List.mem_cons_self

/-- An event beyond the window after the last activity makes a cluster of
its own. -/
theorem push_apart (h : Clustered s clusters activities) (starts : a.starts = e.starts)
    (ends : a.ends = e.ends) (forward : ∀ f ∈ clusters.flatten, f.Forward) (he : e.Forward)
    (later : ∀ f ∈ clusters.flatten, f.starts ≤ e.starts)
    (apart : ∀ last, activities.getLast? = some last → last.ends.nanos + s.combine < e.starts.nanos) :
    Clustered s (clusters ++ [[e]]) (activities ++ [a]) := by
  refine h.concat (.singleton starts ends) (fun f hf g hg => ?_) fun c' hc' f hf g hg => ?_
  · cases List.mem_singleton.mp hf
    cases List.mem_singleton.mp hg
    exact .refl
  cases List.mem_singleton.mp hg
  rcases List.eq_nil_or_concat' activities with rfl | ⟨activities, last, rfl⟩
  · cases h.hulls
    cases hc'
  obtain ⟨before, c, rfl, -, hull, -, gap⟩ := h.exists_last
  have mem {f : UsageEvent} {c' : List UsageEvent} (hc' : c' ∈ before ++ [c]) (hf : f ∈ c') :
      f ∈ (before ++ [c]).flatten := List.mem_flatten.mpr ⟨c', hc', hf⟩
  have last : c ∈ before ++ [c] := List.mem_append_right _ List.mem_cons_self
  rcases List.mem_append.mp hc' with earlier | same
  · obtain ⟨y, hy, -⟩ := hull.exists_starts
    have order := later y (mem last hy)
    rw [Instant.le_iff_nanos (forward y (mem last hy)).starts he.starts] at order
    exact Int.lt_of_lt_of_le (gap c' earlier f hf y hy) order
  · cases List.mem_singleton.mp same
    obtain ⟨y, hy, ends⟩ := hull.exists_ends
    have within := hull.le_ends hf
    rw [← ends, Instant.le_iff_nanos (forward f (mem last hf)).ends (forward y (mem last hy)).ends, ends] at within
    have far := apart _ (List.getLast?_concat ..)
    omega

/-- An event near the last activity joins the last cluster: some event ends
there. -/
theorem push_near {last : Activity} (h : Clustered s clusters (activities ++ [last]))
    (forward : ∀ f ∈ clusters.flatten, f.Forward) (he : e.Forward)
    (later : ∀ f ∈ clusters.flatten, f.starts ≤ e.starts) (positive : 0 < s.combine)
    (near : e.starts.nanos ≤ last.ends.nanos + s.combine) :
    ∃ clusters', clusters'.flatten = clusters.flatten ++ [e] ∧
      Clustered s clusters' (activities ++ [{ last with ends := max last.ends e.ends }]) := by
  obtain ⟨before, c, rfl, h', hull, chained, gap⟩ := h.exists_last
  have mem {f : UsageEvent} (hf : f ∈ c) : f ∈ (before ++ [c]).flatten :=
    List.mem_flatten.mpr ⟨c, List.mem_append_right _ List.mem_cons_self, hf⟩
  have order {f : UsageEvent} (hf : f ∈ c) : f.starts.nanos ≤ e.starts.nanos :=
    (Instant.le_iff_nanos (forward f (mem hf)).starts he.starts).mp (later f (mem hf))
  obtain ⟨y, hy, ends⟩ := hull.exists_ends
  have links : y.Near s e := by
    rw [UsageEvent.near_iff (forward y (mem hy)) he, ends]
    have := order hy
    have := he.ordered
    omega
  have hy' : y ∈ c ++ [e] := List.mem_append_left _ hy
  have he' : e ∈ c ++ [e] := List.mem_append_right _ List.mem_cons_self
  have kept {f g : UsageEvent} (hf : f ∈ c) (hg : g ∈ c) : f.Linked s (c ++ [e]) g :=
    (chained f hf g hg).mono (List.subset_append_left ..)
  refine ⟨before ++ [c ++ [e]], by simp, h'.concat (hull.append fun f hf => later f (mem hf))
    (fun f hf g hg => ?_) fun c' hc' f hf g hg => ?_⟩
  · rcases List.mem_append.mp hf with hf | hf <;> rcases List.mem_append.mp hg with hg | hg
    · exact kept hf hg
    · cases List.mem_singleton.mp hg
      exact (kept hf hy).tail ⟨hy', he', links⟩
    · cases List.mem_singleton.mp hf
      exact (kept hy hg).head ⟨he', hy', links.symm⟩
    · cases List.mem_singleton.mp hf
      cases List.mem_singleton.mp hg
      exact .refl
  · rcases List.mem_append.mp hg with hg | hg
    · exact gap c' hc' f hf g hg
    · cases List.mem_singleton.mp hg
      exact Int.lt_of_lt_of_le (gap c' hc' f hf y hy) (order hy)

/-- What was gathered are the clusters: no chain leads over a gap. -/
theorem toClusters (h : Clustered s clusters activities) (forward : ∀ e ∈ clusters.flatten, e.Forward)
    (positive : 0 < s.combine) : Clusters s clusters.flatten clusters activities := by
  have plain {f : UsageEvent} {c : List UsageEvent} (hc : c ∈ clusters) (hf : f ∈ c) : f.Forward :=
    forward f (List.mem_flatten.mpr ⟨c, hc, hf⟩)
  have same : ∀ c ∈ clusters, ∀ c' ∈ clusters, ∀ e ∈ c, ∀ f ∈ c', e.Near s f → c = c' := by
    refine List.Pairwise.forall_of_forall_of_flip (fun _ _ _ _ _ _ _ => rfl) ?_ ?_
    all_goals
      refine h.gaps.imp_of_mem fun hc hc' gap e he f hf near => ?_
    · rw [UsageEvent.near_iff (plain hc he) (plain hc' hf)] at near
      exact absurd (gap e he f hf) (not_lt_of_ge near.2)
    · rw [UsageEvent.near_iff (plain hc' he) (plain hc hf)] at near
      exact absurd (gap f hf e he) (not_lt_of_ge near.1)
  refine ⟨rfl, h.gaps.imp_of_mem fun hc hc' gap e he he' => ?_,
    fun c hc e he f hf => ⟨fun hf => ?_, fun linked => ?_⟩, h.hulls⟩
  · have := gap e he e he'
    have := (plain hc he).ordered
    omega
  · exact (h.chained c hc e he f hf).mono fun x hx => List.mem_flatten.mpr ⟨c, hc, hx⟩
  · clear hf
    induction linked with
    | refl => exact he
    | tail _ step ih =>
      obtain ⟨c', hc', hf⟩ := List.mem_flatten.mp step.2.1
      rw [same c hc c' hc' _ ih _ hf step.2.2]
      exact hf

end Clustered

/-! ## The activities of a device -/

section Used

variable {s : Settings} {d : Day} {opened : Bool} {e : UsageEvent} {next next' : Nat} {r : Merged}

/-- What an event in order does to the activities of its device, in a day
that it ends in and where no growth is too little: it makes a new one beyond
the window after the last, or the last one lasts to its end. -/
theorem Applied.used_eq (h : Applied s d opened (e.fit d) next r next') (timed : s.Timed)
    (noSkip : s.skip = 0) (takes : d.Takes e next) (tidy : d.Tidy s) (fits : e.ends ≤ d.ends)
    (long : s.minimum ≤ e.ends.since e.starts)
    (inOrder : ∀ last, d.last? e.device = some last → last.starts ≤ e.starts) :
    (∃ a : Activity, a.starts = e.starts ∧ a.ends = e.ends ∧
      r.day.used e.device = d.used e.device ++ [a] ∧
      ∀ last, d.last? e.device = some last → last.ends.nanos + s.combine < e.starts.nanos) ∨
    ∃ before last, d.used e.device = before ++ [last] ∧
      e.starts.nanos ≤ last.ends.nanos + s.combine ∧
      r.day.used e.device = before ++ [{ last with ends := max last.ends e.ends }] := by
  have whole : e.fit d = e := UsageEvent.fit_of_le fits
  rw [whole] at h
  have sure {decision : Decision} (decided : s.decide? d e = some decision) : s.Decided d e decision :=
    timed.decided tidy.ordinary takes.starts takes.ends decided
  cases h with
  | @create starts ends _ decided stretched added =>
    obtain ⟨-, rfl⟩ := Day.add_eq added
    obtain ⟨rfl, rfl⟩ : e.starts = starts ∧ e.ends = ends := by
      unfold Settings.stretch? at stretched
      simp only [timed.minimum, Option.bind_eq_bind, Option.bind_some] at stretched
      rw [if_neg (not_lt_of_ge long)] at stretched
      exact Prod.mk.inj (Option.some.inj stretched)
    refine .inl ⟨⟨⟨next⟩, e.starts, e.ends, e.device, e.app⟩, rfl, rfl, ?_, fun last hlast => ?_⟩
    · refine Day.filter_insert tidy.sorted (by simp) fun b hb device => ?_
      cases hlast : d.last? e.device with
      | none => exact absurd device (List.find?_eq_none.mp hlast b (List.mem_reverse.mpr hb))
      | some last =>
        rcases Day.pairwise_last? hlast tidy.sorted hb (beq_iff_eq.mp device) with rfl | before
        · exact inOrder b hlast
        · exact le_trans before (inOrder last hlast)
    · cases sure decided with
      | first none => cases none.symm.trans hlast
      | earlier hlast' before => exact absurd (inOrder _ hlast') (not_le_of_gt before)
      | apart hlast' _ gap =>
        cases hlast'.symm.trans hlast
        exact gap
  | extend decided extended =>
    obtain ⟨last, hlast, rfl, longer⟩ := Settings.lt_ends_of_extend decided
    obtain ⟨_, hlast', -, -, near, -⟩ := (sure decided).of_extend
    cases hlast.symm.trans hlast'
    obtain ⟨-, -, rfl⟩ := Day.extend_eq takes.labelled (Day.mem_of_last? hlast) longer extended
    obtain ⟨before, split⟩ := Day.exists_used_eq hlast
    refine .inr ⟨before, last, split, near, ?_⟩
    rw [max_eq_right (le_of_lt longer)]
    exact takes.labelled.used_map split _
  | @absorb last decided =>
    cases sure decided with
    | absorb hlast _ near within =>
      obtain ⟨before, split⟩ := Day.exists_used_eq hlast
      refine .inr ⟨before, last, split, near, ?_⟩
      have ends := (tidy.ordinary last (Day.mem_of_last? hlast)).2
      rw [max_eq_left ((Instant.le_iff_nanos takes.ends ends).mpr (by omega))]
      exact split

end Used
end UsageDiary
