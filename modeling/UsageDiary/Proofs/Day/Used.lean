import Mathlib.Data.List.Nodup
import UsageDiary.Proofs.Day.Labels

/-!
# The activities of a device in a day

An event is compared with the last activity of its device, `Day.last?`. It
is the last one of `Day.used`, the activities of the device in order of
their starts. An activity that is put in behind it goes to the end of that
list (`Day.filter_insert`), and where its end moves, the list changes
nowhere else (`Day.Labelled.used_map`).
-/

namespace UsageDiary.Day

variable {d : Day} {device : Option Id} {last : Activity}

/-- The activities of a device in a day. -/
def used (d : Day) (device : Option Id) : List Activity := d.activities.filter (·.device == device)

theorem getLast?_used (d : Day) (device : Option Id) : (d.used device).getLast? = d.last? device :=
  List.getLast?_filter

theorem exists_used_eq (hlast : d.last? device = some last) : ∃ before, d.used device = before ++ [last] :=
  List.getLast?_eq_some_iff.mp ((d.getLast?_used device).trans hlast)

/-- What holds of the earlier and the later of any two activities holds of
each one of a device and the last one, unless it is that one. -/
theorem pairwise_last? {b : Activity} {rel : Activity → Activity → Prop} (hlast : d.last? device = some last)
    (h : d.activities.Pairwise rel) (hb : b ∈ d.activities) (same : b.device = device) :
    b = last ∨ rel b last := by
  obtain ⟨before, split⟩ := exists_used_eq hlast
  have pairwise : (d.used device).Pairwise rel := h.filter _
  have mem : b ∈ d.used device := List.mem_filter.mpr ⟨hb, beq_iff_eq.mpr same⟩
  rw [split] at pairwise mem
  rcases List.mem_append.mp mem with mem | mem
  · exact .inr ((List.pairwise_append.mp pairwise).2.2 b mem last List.mem_cons_self)
  · exact .inl (List.mem_singleton.mp mem)

/-- An activity after the others of its device is the last one there. -/
theorem filter_insert {p : Activity → Bool} {a : Activity} {as : List Activity} (sorted : Sorted as)
    (hp : p a = true) (last : ∀ b ∈ as, p b = true → b.starts ≤ a.starts) :
    (insert a as).filter p = as.filter p ++ [a] := by
  induction as with
  | nil => simp [insert, hp]
  | cons b rest ih =>
    obtain ⟨later, ordered⟩ := List.pairwise_cons.mp sorted
    have rest' := ih ordered fun c hc => last c (List.mem_cons_of_mem b hc)
    rw [insert]
    split
    · rw [List.filter_cons, List.filter_cons, rest']
      split <;> rfl
    · next behind =>
      have none : ∀ c ∈ b :: rest, ¬ p c = true := fun c hc hpc => by
        have before := last c hc hpc
        rcases List.mem_cons.mp hc with rfl | hc
        · exact behind before
        · exact behind (le_trans (later c hc) before)
      rw [List.filter_cons_of_pos hp, List.filter_eq_nil_iff.mpr none]
      rfl

namespace Labelled

variable {next : Nat} (labelled : d.Labelled next)
include labelled

/-- Where the end of the last activity of a device moves, the others stay. -/
theorem used_map {before : List Activity} (split : d.used device = before ++ [last]) (ends : Instant) :
    ({ d with activities := d.activities.map fun b =>
      if b.id = last.id then { last with ends := ends } else b } : Day).used device =
        before ++ [{ last with ends := ends }] := by
  have hlast : d.last? device = some last := by rw [← getLast?_used, split, List.getLast?_concat]
  have same : ∀ b ∈ d.activities, ((·.device == device) ∘ fun b : Activity =>
      if b.id = last.id then { last with ends := ends } else b) b = (b.device == device) := by
    intro b hb
    simp only [Function.comp_apply]
    split
    · next hid => rw [labelled.eq_of_id hb (mem_of_last? hlast) hid]
    · rfl
  have distinct : ((d.used device).map (·.id)).Nodup :=
    labelled.distinct.sublist (List.filter_sublist.map _)
  rw [split, List.map_append, List.nodup_append] at distinct
  unfold used at split ⊢
  rw [List.filter_map, List.filter_congr same, split, List.map_append, List.map_singleton, if_pos rfl]
  refine congrArg (· ++ _) ((List.map_congr_left fun b hb => if_neg fun hid => ?_).trans (List.map_id' _))
  exact distinct.2.2 b.id (List.mem_map_of_mem hb) last.id (by simp) hid

/-- The activity of a device that starts last stays so when its end moves. -/
theorem last?_extend (hlast : d.last? device = some last) (ends : Instant) :
    ({ d with activities := d.activities.map fun b =>
      if b.id = last.id then { last with ends := ends } else b } : Day).last? device =
        some { last with ends := ends } := by
  obtain ⟨before, split⟩ := exists_used_eq hlast
  rw [← getLast?_used, labelled.used_map split, List.getLast?_concat]

end Labelled
end UsageDiary.Day
