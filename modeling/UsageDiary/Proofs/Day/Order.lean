import Mathlib.Data.List.Induction
import UsageDiary.Day
import UsageDiary.Proofs.Calendar.Order

/-!
# The order of activities in a day

A day keeps its activities in order of their starts. Here they are compared
with the order they were added in. The activity of a device that starts
last, the latest added of equals, is the same in both
(`Day.find?_reverse_inOrder`), and so is a change of one activity that
leaves its start (`Day.map_inOrder`).
-/

namespace UsageDiary

/-- Items that are put in one after the other stay in the order they come in,
if each belongs behind those before it. -/
theorem foldl_put_eq_self {α : Type} {put : α → List α → List α} {rel : α → α → Prop}
    (behind : ∀ a before, (∀ b ∈ before, rel b a) → put a before = before ++ [a]) {as : List α}
    (h : as.Pairwise rel) : as.foldl (fun sorted a => put a sorted) [] = as := by
  induction as using List.reverseRecOn with
  | nil => rfl
  | append_singleton as a ih =>
    obtain ⟨ordered, -, before⟩ := List.pairwise_append.mp h
    rw [List.foldl_append, ih ordered, List.foldl_cons, List.foldl_nil]
    exact behind a as fun b hb => before b hb a List.mem_cons_self

namespace Day

/-- Activities in order of their starts. -/
def Sorted (as : List Activity) : Prop := as.Pairwise fun a b => a.starts ≤ b.starts

theorem perm_insert (a : Activity) (as : List Activity) : (insert a as).Perm (a :: as) := by
  induction as with
  | nil => exact .refl _
  | cons b rest ih =>
    simp only [insert]
    split
    · exact (ih.cons b).trans (.swap a b rest)
    · exact .refl _

/-- An activity is put somewhere among the others. -/
theorem insert_split (a : Activity) (as : List Activity) :
    ∃ before after, as = before ++ after ∧ insert a as = before ++ a :: after := by
  induction as with
  | nil => exact ⟨[], [], rfl, rfl⟩
  | cons b rest ih =>
    rw [insert]
    split
    · obtain ⟨before, after, split, inserted⟩ := ih
      exact ⟨b :: before, after, congrArg (b :: ·) split, congrArg (b :: ·) inserted⟩
    · exact ⟨[], b :: rest, rfl, rfl⟩

/-- Putting an activity in order keeps what holds of the earlier and the
later of any two, if it holds of the new one and those before and behind it. -/
theorem pairwise_insert {rel : Activity → Activity → Prop} {a : Activity} {as : List Activity}
    (sorted : Sorted as) (h : as.Pairwise rel) (before : ∀ b ∈ as, b.starts ≤ a.starts → rel b a)
    (behind : ∀ b ∈ as, a.starts < b.starts → rel a b) : (insert a as).Pairwise rel := by
  induction as with
  | nil => exact List.pairwise_singleton ..
  | cons b rest ih =>
    obtain ⟨hb, hrest⟩ := List.pairwise_cons.mp h
    obtain ⟨later, ordered⟩ := List.pairwise_cons.mp sorted
    simp only [insert]
    split
    · next hle =>
      refine List.pairwise_cons.mpr ⟨fun c hc => ?_, ih ordered hrest
        (fun c hc => before c (List.mem_cons_of_mem b hc))
        fun c hc => behind c (List.mem_cons_of_mem b hc)⟩
      rcases List.mem_cons.mp ((perm_insert a rest).mem_iff.mp hc) with rfl | hc
      · exact before b List.mem_cons_self hle
      · exact hb c hc
    · next hlt =>
      have hab : a.starts < b.starts := lt_of_not_ge hlt
      refine List.pairwise_cons.mpr ⟨fun c hc => behind c hc ?_, h⟩
      rcases List.mem_cons.mp hc with rfl | hc
      · exact hab
      · exact lt_of_lt_of_le hab (later c hc)

theorem sorted_insert (a : Activity) {as : List Activity} (h : Sorted as) : Sorted (insert a as) :=
  pairwise_insert h h (fun _ _ hle => hle) fun _ _ => le_of_lt

theorem inOrder_append (as : List Activity) (a : Activity) :
    inOrder (as ++ [a]) = insert a (inOrder as) :=
  List.foldl_append

/-- Activities are put in order one after the other, as they were added. -/
theorem inOrder_induction (holds : List Activity → List Activity → Prop) (nil : holds [] [])
    (append : ∀ as a, holds as (inOrder as) → holds (as ++ [a]) (insert a (inOrder as)))
    (as : List Activity) : holds as (inOrder as) := by
  induction as using List.reverseRecOn with
  | nil => exact nil
  | append_singleton as a ih => exact inOrder_append as a ▸ append as a ih

theorem sorted_inOrder (as : List Activity) : Sorted (inOrder as) :=
  inOrder_induction (fun _ => Sorted) .nil (fun _ a => sorted_insert a) as

theorem insert_of_le {a : Activity} {as : List Activity} (h : ∀ b ∈ as, b.starts ≤ a.starts) :
    insert a as = as ++ [a] := by
  induction as with
  | nil => rfl
  | cons b rest ih =>
    rw [insert, if_pos (h b List.mem_cons_self), ih fun c hc => h c (List.mem_cons_of_mem b hc),
      List.cons_append]

/-- Activities that are in order stay as they are. -/
theorem inOrder_of_sorted {as : List Activity} (h : Sorted as) : inOrder as = as :=
  foldl_put_eq_self (fun _ _ => insert_of_le) h

theorem perm_inOrder (as : List Activity) : (inOrder as).Perm as := by
  refine inOrder_induction (fun as sorted => sorted.Perm as) .nil (fun as a ih => ?_) as
  exact (perm_insert a _).trans ((ih.cons a).trans (List.perm_append_singleton a as).symm)

/-! ## The activity that starts last -/

/-- The later of an activity and another one added after it. -/
def laterStart (best? : Option Activity) (a : Activity) : Option Activity :=
  match best? with
  | some best => if a.starts < best.starts then some best else some a
  | none => some a

/-- Adding an activity to sorted ones makes it the last of its kind, unless
it starts before the one that was. -/
theorem find?_reverse_insert {p : Activity → Bool} (a : Activity) {as : List Activity}
    (h : Sorted as) : (insert a as).reverse.find? p =
      if p a then laterStart (as.reverse.find? p) a else as.reverse.find? p := by
  induction as with
  | nil => cases hp : p a <;> simp [insert, hp, laterStart]
  | cons b rest ih =>
    obtain ⟨hb, hrest⟩ := List.pairwise_cons.mp h
    simp only [insert]
    split
    · next hle =>
      rw [List.reverse_cons, List.find?_append, ih hrest, List.reverse_cons, List.find?_append]
      cases hp : p a with
      | false => simp
      | true =>
        cases hfound : rest.reverse.find? p with
        | some c => simp [laterStart]; split <;> rfl
        | none => cases hpb : p b <;> simp [laterStart, hpb, not_lt_of_ge hle]
    · next hlt =>
      rw [List.reverse_cons, List.find?_append]
      cases hfound : (b :: rest).reverse.find? p with
      | none => cases hp : p a <;> simp [hp, laterStart]
      | some c =>
        have hc : c ∈ b :: rest := List.mem_reverse.mp (List.mem_of_find?_eq_some hfound)
        have hac : a.starts < c.starts := by
          rcases List.mem_cons.mp hc with rfl | hc
          · exact lt_of_not_ge hlt
          · exact lt_of_lt_of_le (lt_of_not_ge hlt) (hb c hc)
        simp [laterStart, hac]

/-- The last of its kind among sorted activities is the one of the greatest
start among those added, the latest added of equals. -/
theorem find?_reverse_inOrder (p : Activity → Bool) (as : List Activity) :
    (inOrder as).reverse.find? p = (as.filter p).foldl laterStart none := by
  refine inOrder_induction (fun as sorted =>
    sorted.reverse.find? p = (as.filter p).foldl laterStart none) rfl (fun as a ih => ?_) as
  rw [find?_reverse_insert a (sorted_inOrder as), ih, List.filter_append]
  cases hp : p a <;> simp [hp]

/-! ## Changing one activity -/

theorem map_insert {f : Activity → Activity} (hf : ∀ a, (f a).starts = a.starts) (a : Activity)
    (as : List Activity) : (insert a as).map f = insert (f a) (as.map f) := by
  induction as with
  | nil => rfl
  | cons b rest ih =>
    simp only [insert, List.map_cons, hf]
    split
    · rw [List.map_cons, ih]
    · rfl

theorem map_inOrder {f : Activity → Activity} (hf : ∀ a, (f a).starts = a.starts)
    (as : List Activity) : (inOrder as).map f = inOrder (as.map f) := by
  refine inOrder_induction (fun as sorted => sorted.map f = inOrder (as.map f)) rfl
    (fun as a ih => ?_) as
  rw [map_insert hf, ih, List.map_append, List.map_cons, List.map_nil, inOrder_append]

/-- Where ids are distinct, changing the first activity with an id changes
the one with that id. -/
theorem updateFirst_eq_map {id : Id} {f : Activity → Activity} {as : List Activity}
    (distinct : (as.map (·.id)).Nodup) :
    updateFirst id f as = as.map fun a => if a.id = id then f a else a := by
  induction as with
  | nil => rfl
  | cons a rest ih =>
    rw [List.map_cons, List.nodup_cons] at distinct
    simp only [updateFirst, List.map_cons]
    split
    · next h =>
      have others : rest.map (fun a => if a.id = id then f a else a) = rest.map fun a => a :=
        List.map_congr_left fun b hb => if_neg fun hid =>
          distinct.1 (List.mem_map.mpr ⟨b, hb, hid.trans h.symm⟩)
      rw [others, List.map_id']
    · rw [ih distinct.2]

end Day
end UsageDiary
