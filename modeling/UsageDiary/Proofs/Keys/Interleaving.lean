import Mathlib.GroupTheory.GroupAction.MultipleTransitivity
import UsageDiary.Proofs.Keys.Housed
import UsageDiary.Proofs.Keys.Local

/-!
# Merges that take turns

Two sequences of merges for different users or goals take turns
(`Interleaves`). Seen from one of them, the run is that of this sequence
alone, up to the ids that the other drew in between (`World.Follows`): its
own merges go the same way, since they depend on their share only, and a
merge of the other leaves this share as it was. The ids drawn in the turns
of the one are none of those drawn in the turns of the other
(`World.DrawnIn`), so what the two sequences get in two orders of turns is
the same up to one renaming (`World.Ready.interleavings`).
-/

namespace UsageDiary

/-- One finite family of ids is renamed to another. -/
theorem Id.exists_perm {α : Type} [Finite α] (f g : α ↪ Id) : ∃ σ : Equiv.Perm Id, ∀ a, σ (f a) = g a := by
  obtain ⟨n, ⟨e⟩⟩ := Finite.exists_equiv_fin α
  have transitive := Equiv.Perm.isMultiplyPretransitive Id n
  obtain ⟨σ, h⟩ := MulAction.exists_smul_eq (Equiv.Perm Id) (e.symm.toEmbedding.trans f)
    (e.symm.toEmbedding.trans g)
  refine ⟨σ, fun a => ?_⟩
  have at_a := DFunLike.congr_fun h (e a)
  simpa using at_a

/-! ## Turns -/

section Turns

variable {α : Type}

/-- The items that the second of two sequences, or the first, brings in its
turns. -/
def side (second : Bool) (turns : List (Bool × α)) : List α :=
  (turns.filter (·.1 == second)).map (·.2)

theorem side_cons_self (b : Bool) (a : α) (turns : List (Bool × α)) :
    side b ((b, a) :: turns) = a :: side b turns := by
  simp [side]

theorem side_cons_of_ne {b c : Bool} (h : c ≠ b) (a : α) (turns : List (Bool × α)) :
    side b ((c, a) :: turns) = side b turns := by
  simp [side, h]

/-- The second of two sequences, or the first. -/
def sequence (xs ys : List α) (second : Bool) : List α := if second then ys else xs

variable {xs ys : List α} {turns : List (Bool × α)} {b : Bool} {a : α}

theorem mem_append_of_sequence (h : a ∈ sequence xs ys b) : a ∈ xs ++ ys := by
  cases b with
  | false => exact List.mem_append_left ys h
  | true => exact List.mem_append_right xs h

/-- Two sequences take turns, each in its own order. -/
structure Interleaves (xs ys : List α) (turns : List (Bool × α)) : Prop where
  first : side false turns = xs
  second : side true turns = ys

theorem Interleaves.side_eq (h : Interleaves xs ys turns) (b : Bool) : side b turns = sequence xs ys b := by
  cases b with
  | false => exact h.first
  | true => exact h.second

theorem Interleaves.mem (h : Interleaves xs ys turns) (ha : (b, a) ∈ turns) : a ∈ sequence xs ys b := by
  rw [← h.side_eq]
  exact List.mem_map.mpr ⟨(b, a), List.mem_filter.mpr ⟨ha, by simp⟩, rfl⟩

end Turns

namespace World

/-- The answers to merges that take turns, each with the side of its merge. -/
def sideAnswers (w : World) (s : Settings) (turns : List (Bool × Act)) : List (Bool × Answer) :=
  (turns.map (·.1)).zip (w.answers s (turns.map (·.2)))

/-- In order, and no call fails. -/
structure Ready (w : World) : Prop extends w.Housed where
  calm : w.outages = []

variable {s : Settings} {w x z : World} {user : User} {goal : Id} {e : UsageEvent} {a : Act}
  {mine : Id × Id → Prop} {ρ : Id → Id}

namespace Ready

theorem next (h : w.Ready) (s : Settings) (merges : a.isMerge) :
    (a.next s w).Ready ∧ w.nextId ≤ (a.next s w).nextId := by
  obtain ⟨user, goal, e, rfl⟩ := Act.eq_merge merges
  obtain ⟨housed, le, -⟩ := h.merge s user goal e
  obtain ⟨m, hm, -⟩ := h.stored
  obtain ⟨v, -, at'⟩ := (Work.merge_ending s user goal e hm).moved
  exact ⟨⟨housed, at'.outages h.calm⟩, le⟩

/-- A merge leaves the shares of others as they were. -/
theorem share_next (h : w.Ready) (s : Settings) {user' goal' : Id} (ne : (user', goal') ≠ (user.id, goal)) :
    ((Act.merge user goal e).next s w).share user' goal' = w.share user' goal' := by
  obtain ⟨share, hshare, own, -⟩ := h.share user.id goal
  exact Work.share_merge_of_ne s e hshare own ne

end Ready

/-! ## Seen from one side -/

/-- One world follows another in what it keeps of some users and goals, up
to a renaming that takes the ids yet to be drawn in the other to its own. -/
structure Follows (mine : Id × Id → Prop) (ρ : Id → Id) (x z : World) : Prop where
  injective : Function.Injective ρ
  next : ∀ k, ρ ⟨x.nextId + k⟩ = ⟨z.nextId + k⟩
  share : ∀ {user goal}, mine (user, goal) → z.share user goal = (x.share user goal).map (·.rename ρ)

namespace Follows

theorem refl (mine : Id × Id → Prop) (w : World) : w.Follows mine (fun id => id) w := by
  refine ⟨fun _ _ h => h, fun _ => rfl, fun {user goal} _ => ?_⟩
  rw [show (fun share : Share => share.rename fun id => id) = fun share => share from funext Share.rename_same,
    Option.map_id']

/-- Ids that were drawn in the one world are ids that were drawn in the other. -/
theorem lt (h : x.Follows mine ρ z) {id : Id} (drawn : id.value < x.nextId) : (ρ id).value < z.nextId := by
  by_contra late
  obtain ⟨k, hk⟩ := Nat.exists_eq_add_of_le (Nat.le_of_not_lt late)
  have same : ρ id = ρ ⟨x.nextId + k⟩ := by
    rw [h.next, ← hk]
  rw [h.injective same] at drawn
  exact absurd drawn (Nat.not_lt.mpr (Nat.le_add_right _ k))

/-- A merge of one's own goes the same way in both worlds. -/
theorem own (h : x.Follows mine ρ z) (hx : x.Ready) (hz : z.Ready) (s : Settings)
    (theirs : mine (user.id, goal)) :
    ((Work.merge s user goal e).exec z).1 = Answer.rename ρ ((Work.merge s user goal e).exec x).1 ∧
      ((Act.merge user goal e).next s x).Follows mine ρ ((Act.merge user goal e).next s z) := by
  obtain ⟨share, hshare, own, -⟩ := hx.share user.id goal
  have start : x.Matches ρ user.id goal z := ⟨h.share theirs, h.next⟩
  obtain ⟨answer, matched⟩ := start.merge h.injective hshare own hx.calm hz.calm s e
  refine ⟨answer, h.injective, matched.next, fun {user' goal'} hmine => ?_⟩
  by_cases key : (user', goal') = (user.id, goal)
  · cases key
    exact matched.share
  · rw [hx.share_next s key, hz.share_next s key]
    exact h.share hmine

/-- A merge of another moves the ids on that are still to be drawn. -/
theorem other (h : x.Follows mine ρ z) (hz : z.Ready) (s : Settings) (others : ¬ mine (user.id, goal)) :
    x.Follows mine
      (fun id => Id.shift z.nextId (((Act.merge user goal e).next s z).nextId - z.nextId) (ρ id))
      ((Act.merge user goal e).next s z) := by
  generalize drawn : ((Act.merge user goal e).next s z).nextId = n
  have le : z.nextId ≤ n := drawn ▸ (hz.next s (a := .merge user goal e) rfl).2
  refine ⟨Id.shift_injective.comp h.injective, fun k => ?_, fun {user' goal'} hmine => ?_⟩
  · rw [h.next, Id.shift_of_le (Nat.le_add_right _ k)]
    exact congrArg Id.mk (by omega)
  · have ne : (user', goal') ≠ (user.id, goal) := fun same => others (same ▸ hmine)
    obtain ⟨share, hshare, -, drawn⟩ := hz.share user' goal'
    rw [hz.share_next s ne]
    have kept := h.share hmine
    rw [hshare] at kept
    obtain ⟨share', hshare', rfl⟩ := Option.map_eq_some_iff.mp kept.symm
    have same : share'.rename (fun id => Id.shift z.nextId (n - z.nextId) (ρ id)) = share'.rename ρ :=
      (Share.rename_rename share').symm.trans (Share.rename_eq_self fun id hid => Id.shift_of_lt (drawn id hid))
    rw [hshare, hshare', Option.map_some, same]

end Follows

/-- The id is drawn in a turn of one side. -/
def DrawnIn (s : Settings) (second : Bool) : World → List (Bool × Act) → Id → Prop
  | _, [], _ => False
  | w, (b, a) :: rest, id =>
    b = second ∧ w.nextId ≤ id.value ∧ id.value < (a.next s w).nextId ∨
      DrawnIn s second (a.next s w) rest id

section DrawnIn

variable {b b' : Bool} {turns : List (Bool × Act)} {id : Id}

theorem DrawnIn.le (h : DrawnIn s b w turns id) (ready : w.Ready)
    (merges : ∀ turn ∈ turns, turn.2.isMerge) : w.nextId ≤ id.value := by
  induction turns generalizing w with
  | nil => exact h.elim
  | cons turn rest ih =>
    obtain ⟨merge, merges⟩ := List.forall_mem_cons.mp merges
    obtain ⟨next, le⟩ := ready.next s merge
    rcases h with ⟨-, le, -⟩ | later
    · exact le
    · exact Nat.le_trans le (ih later next merges)

/-- No id is drawn in turns of both sides. -/
theorem DrawnIn.side_eq (h : DrawnIn s b w turns id) (h' : DrawnIn s b' w turns id) (ready : w.Ready)
    (merges : ∀ turn ∈ turns, turn.2.isMerge) : b = b' := by
  induction turns generalizing w with
  | nil => exact h.elim
  | cons turn rest ih =>
    obtain ⟨merge, merges⟩ := List.forall_mem_cons.mp merges
    have next := (ready.next s merge).1
    rcases h with ⟨same, -, lt⟩ | later <;> rcases h' with ⟨same', -, lt'⟩ | later'
    · exact same.symm.trans same'
    · exact absurd lt (Nat.not_lt.mpr (later'.le next merges))
    · exact absurd lt' (Nat.not_lt.mpr (later.le next merges))
    · exact ih later later' next merges

end DrawnIn

/-- Seen from one side, a run in which two sequences take turns is that of
this side alone, up to a renaming that takes the ids drawn there to those
drawn in turns of this side. By induction on the turns. -/
theorem Follows.run {b : Bool} {turns : List (Bool × Act)} (h : x.Follows mine ρ z) (hx : x.Ready)
    (hz : z.Ready) (sides : ∀ turn ∈ turns, ∃ key, turn.2.key? = some key ∧ (mine key ↔ turn.1 = b)) :
    ∃ ρ', (x.after s (side b turns)).Follows mine ρ' (z.after s (turns.map (·.2))) ∧
      side b (z.sideAnswers s turns) = (x.answers s (side b turns)).map (Answer.rename ρ') ∧
      (∀ id, id.value < x.nextId → ρ' id = ρ id) ∧
      ∀ id, x.nextId ≤ id.value → id.value < (x.after s (side b turns)).nextId →
        DrawnIn s b z turns (ρ' id) := by
  induction turns generalizing x z ρ with
  | nil => exact ⟨ρ, h, rfl, fun _ _ => rfl, fun id le lt => absurd lt (Nat.not_lt.mpr le)⟩
  | cons turn rest ih =>
    obtain ⟨b', a⟩ := turn
    obtain ⟨⟨key, keyed, mine_iff⟩, others⟩ := List.forall_mem_cons.mp sides
    have merges : a.isMerge := Option.isSome_iff_exists.mpr ⟨key, keyed⟩
    obtain ⟨user, goal, e, rfl⟩ := Act.eq_merge merges
    cases keyed
    obtain ⟨nextx, le⟩ := hx.next s merges
    have nextz := (hz.next s merges).1
    by_cases same : b' = b
    · subst same
      obtain ⟨answer, follows⟩ := h.own hx hz s (mine_iff.mpr rfl)
      obtain ⟨ρ', end', answers, agree, drawn⟩ := ih follows nextx nextz others
      have ids := (hx.merge s user goal e).2.2
      rw [side_cons_self]
      refine ⟨ρ', end', ?_, fun id lt => agree id (Nat.lt_of_lt_of_le lt le), fun id ge lt => ?_⟩
      · show side b' ((b', _) :: sideAnswers ((Act.merge user goal e).next s z) s rest) = _ :: _
        rw [side_cons_self, answers, answer]
        exact congrArg (· :: _) (Answer.rename_congr fun id hid => (agree id (ids id hid)).symm)
      · by_cases now : id.value < ((Act.merge user goal e).next s x).nextId
        · obtain ⟨k, hk⟩ := Nat.exists_eq_add_of_le ge
          have moved : ρ' id = ⟨z.nextId + k⟩ := by
            rw [agree id now, show id = ⟨x.nextId + k⟩ from congrArg Id.mk hk, h.next]
          refine .inl ⟨rfl, ?_, ?_⟩
          · rw [moved]
            exact Nat.le_add_right _ k
          · rw [agree id now]
            exact follows.lt now
        · exact .inr (drawn id (Nat.le_of_not_lt now) lt)
    · obtain ⟨ρ', end', answers, agree, drawn⟩ :=
        ih (h.other hz s fun theirs => same (mine_iff.mp theirs)) hx nextz others
      rw [side_cons_of_ne same]
      refine ⟨ρ', end', ?_, fun id lt => ?_, fun id ge lt => .inr (drawn id ge lt)⟩
      · show side b ((b', _) :: sideAnswers ((Act.merge user goal e).next s z) s rest) = _
        rw [side_cons_of_ne same, answers]
      · rw [agree id lt, Id.shift_of_lt (h.lt lt)]

/-! ## Two orders of turns -/

section Orders

variable {xs ys : List Act} {turns turns' : List (Bool × Act)}

/-- The users and goals of a side: those of the second sequence, or all others. -/
def OfSide (ys : List Act) (second : Bool) (key : Id × Id) : Prop :=
  (∃ y ∈ ys, y.key? = some key) ↔ second = true

theorem ofSide_key (h : Interleaves xs ys turns) (merges : ∀ a ∈ xs ++ ys, a.isMerge)
    (apart : ∀ x ∈ xs, ∀ y ∈ ys, x.key? ≠ y.key?) (b : Bool) :
    ∀ turn ∈ turns, ∃ key, turn.2.key? = some key ∧ (OfSide ys b key ↔ turn.1 = b) := by
  intro ⟨c, a⟩ hturn
  have brought := h.mem hturn
  obtain ⟨key, keyed⟩ := Option.isSome_iff_exists.mp (merges a (mem_append_of_sequence brought))
  refine ⟨key, keyed, ?_⟩
  unfold OfSide
  cases c with
  | false =>
    have other : ¬ ∃ y ∈ ys, y.key? = some key :=
      fun ⟨y, hy, same⟩ => apart a brought y hy (keyed.trans same.symm)
    cases b <;> simp [other]
  | true =>
    have theirs : ∃ y ∈ ys, y.key? = some key := ⟨a, brought, keyed⟩
    cases b <;> simp [theirs]

theorem Ready.after (h : w.Ready) (s : Settings) {acts : List Act} (merges : ∀ a ∈ acts, a.isMerge) :
    (w.after s acts).Ready ∧ w.nextId ≤ (w.after s acts).nextId ∧
      ∀ answer ∈ w.answers s acts, Id.Drawn (w.after s acts).nextId (Answer.ids answer) := by
  induction acts generalizing w with
  | nil => exact ⟨h, Nat.le_refl _, fun _ hmem => by cases hmem⟩
  | cons a rest ih =>
    obtain ⟨merge, merges⟩ := List.forall_mem_cons.mp merges
    obtain ⟨next, le⟩ := h.next s merge
    obtain ⟨ready, le', drawn⟩ := ih next merges
    refine ⟨ready, Nat.le_trans le le', fun answer hmem => ?_⟩
    obtain ⟨user, goal, e, rfl⟩ := Act.eq_merge merge
    rcases List.mem_cons.mp hmem with rfl | hmem
    · exact (h.merge s user goal e).2.2.mono le'
    · exact drawn answer hmem

/-- How two sides rename the ids that they would draw alone: ids drawn before
`n` stay, and the others go to ids that are drawn later, each to its own. -/
structure Sides (n : Nat) (drawn : Bool → Nat) (ρ : Bool → Id → Id) : Prop where
  injective (b : Bool) : Function.Injective (ρ b)
  old {b : Bool} {id : Id} : id.value < n → ρ b id = id
  new {b : Bool} {id : Id} : n ≤ id.value → id.value < drawn b → n ≤ (ρ b id).value
  apart {b b' : Bool} {i j : Id} : n ≤ i.value → i.value < drawn b → n ≤ j.value → j.value < drawn b' →
    ρ b i = ρ b' j → b = b'

namespace Sides

variable {n : Nat} {drawn : Bool → Nat} {ρ ρ' : Bool → Id → Id}

/-- The old ids, and those that each side draws. -/
def embedding (h : Sides n drawn ρ) : Fin n ⊕ (Σ b : Bool, Fin (drawn b - n)) ↪ Id where
  toFun := Sum.elim (fun i => ⟨i⟩) fun j => ρ j.1 ⟨n + j.2⟩
  inj' := by
    refine .sumElim (fun i j same => Fin.ext (congrArg Id.value same)) ?_ ?_
    · intro ⟨b, i⟩ ⟨b', j⟩ same
      have hi : n + i < drawn b := by omega
      have hj : n + j < drawn b' := by omega
      cases h.apart (Nat.le_add_right n i) hi (Nat.le_add_right n j) hj same
      have values := congrArg Id.value (h.injective b same)
      have ends : i = j := Fin.ext (by simpa using values)
      rw [ends]
    · intro i ⟨b, j⟩ same
      have hj : n + j < drawn b := by omega
      have later : n ≤ (ρ b ⟨n + j⟩).value := h.new (Nat.le_add_right n j) hj
      rw [← same] at later
      exact absurd i.isLt (Nat.not_lt.mpr later)

/-- What two sides draw in one order of turns is renamed to what they draw
in another. -/
theorem exists_perm (h : Sides n drawn ρ) (h' : Sides n drawn ρ') :
    ∃ σ : Equiv.Perm Id, (∀ id, id.value < n → σ id = id) ∧
      ∀ b id, id.value < drawn b → σ (ρ b id) = ρ' b id := by
  obtain ⟨σ, moves⟩ := Id.exists_perm h.embedding h'.embedding
  have old (id : Id) (lt : id.value < n) : σ id = id := moves (.inl ⟨id.value, lt⟩)
  refine ⟨σ, old, fun b id lt => ?_⟩
  by_cases early : id.value < n
  · rw [h.old early, h'.old early, old id early]
  · obtain ⟨k, hk⟩ := Nat.exists_eq_add_of_le (Nat.le_of_not_lt early)
    obtain rfl : id = ⟨n + k⟩ := congrArg Id.mk hk
    have hk : k < drawn b - n := by
      simp only at lt
      omega
    exact moves (.inr ⟨b, ⟨k, hk⟩⟩)

end Sides

/-- Each side of a run in which two sequences take turns sees its own
sequence run alone. -/
theorem Ready.seen (h : w.Ready) (s : Settings) (merges : ∀ a ∈ xs ++ ys, a.isMerge)
    (apart : ∀ x ∈ xs, ∀ y ∈ ys, x.key? ≠ y.key?) (order : Interleaves xs ys turns) :
    ∃ ρ : Bool → Id → Id, Sides w.nextId (fun b => (w.after s (sequence xs ys b)).nextId) ρ ∧
      ∀ b, (w.after s (sequence xs ys b)).Follows (OfSide ys b) (ρ b) (w.after s (turns.map (·.2))) ∧
        side b (w.sideAnswers s turns) = (w.answers s (sequence xs ys b)).map (Answer.rename (ρ b)) := by
  have taken : ∀ turn ∈ turns, turn.2.isMerge :=
    fun turn hturn => merges turn.2 (mem_append_of_sequence (order.mem hturn))
  have run (b : Bool) :=
    Follows.run (s := s) (Follows.refl (OfSide ys b) w) h h (ofSide_key order merges apart b)
  simp only [order.side_eq] at run
  choose ρ follows answers old drawn using run
  refine ⟨ρ, ⟨fun b => (follows b).injective, old _ _, fun {b id} le lt => ?_,
    fun {b b' i j} hi hi' hj hj' same => ?_⟩, fun b => ⟨follows b, answers b⟩⟩
  · exact (drawn b id le lt).le h taken
  · exact (drawn b i hi hi').side_eq (same ▸ drawn b' j hj hj') h taken

/-- In every order of turns each merge answers the same, and the run ends in
the same slots, days and weeks, up to a renaming of the ids drawn in it. -/
theorem Ready.interleavings (h : w.Ready) (s : Settings) (merges : ∀ a ∈ xs ++ ys, a.isMerge)
    (apart : ∀ x ∈ xs, ∀ y ∈ ys, x.key? ≠ y.key?) (order : Interleaves xs ys turns)
    (order' : Interleaves xs ys turns') :
    ∃ σ : Equiv.Perm Id, (∀ id, id.value < w.nextId → σ id = id) ∧
      (∀ b, side b (w.sideAnswers s turns') = (side b (w.sideAnswers s turns)).map (Answer.rename σ)) ∧
      ∀ user goal, (w.after s (turns'.map (·.2))).share user goal =
        ((w.after s (turns.map (·.2))).share user goal).map (·.rename σ) := by
  obtain ⟨ρ, sides, seen⟩ := h.seen s merges apart order
  obtain ⟨ρ', sides', seen'⟩ := h.seen s merges apart order'
  obtain ⟨σ, old, moves⟩ := sides.exists_perm sides'
  have ends (b : Bool) := h.after s fun a (ha : a ∈ sequence xs ys b) => merges a (mem_append_of_sequence ha)
  refine ⟨σ, old, fun b => ?_, fun user goal => ?_⟩
  · obtain ⟨-, -, drawn⟩ := ends b
    rw [(seen b).2, (seen' b).2, List.map_map]
    refine List.map_congr_left fun answer hmem => ?_
    show Answer.rename (ρ' b) answer = Answer.rename σ (Answer.rename (ρ b) answer)
    rw [Answer.rename_rename]
    exact Answer.rename_congr fun id hid => (moves b id (drawn answer hmem id hid)).symm
  · obtain ⟨b, ofSide⟩ : ∃ b, OfSide ys b (user, goal) := by
      by_cases theirs : ∃ y ∈ ys, y.key? = some (user, goal)
      · exact ⟨true, iff_of_true theirs rfl⟩
      · exact ⟨false, iff_of_false theirs (by decide)⟩
    obtain ⟨ready, -, -⟩ := ends b
    obtain ⟨share, hshare, -, drawn⟩ := ready.share user goal
    rw [(seen b).1.share ofSide, (seen' b).1.share ofSide, hshare, Option.map_some, Option.map_some,
      Option.map_some, Share.rename_rename]
    exact congrArg some (Share.rename_congr fun id hid => (moves b id (drawn id hid)).symm)

end Orders
end World
end UsageDiary
