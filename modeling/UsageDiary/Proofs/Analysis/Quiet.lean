import UsageDiary.Proofs.Analysis.Frame

/-!
# Work that does the same but for the log

Two pieces of work amount to the same if they end in the same value, or stop
for the same reason, and leave worlds that differ in their logs at most
(`Work.AmountsTo`). The work after a report then amounts to the same without
the report (`AmountsTo.after_report`), and an analysis takes no notice of
what is in the log (`Work.heedless_analyzing`). The clock stands still
meanwhile, so work that reads it amounts to what it does at that instant
(`AmountsTo.at_clock`).
-/

namespace UsageDiary

/-- The world with an empty log. -/
def World.unlogged (w : World) : World := { w with log := [] }

/-- Two worlds that differ in their logs at most, when the clock shows an
instant. -/
structure World.SameAt (now : Instant) (w w' : World) : Prop where
  now : w.now = now
  unlogged : w.unlogged = w'.unlogged

namespace World.SameAt

variable {now : Instant} {w w' : World}

theorem refl (w : World) : w.SameAt w.now w := ⟨rfl, rfl⟩

theorem symm (h : w.SameAt now w') : w'.SameAt now w :=
  ⟨(congrArg World.now h.unlogged).symm.trans h.now, h.unlogged.symm⟩

end World.SameAt

namespace Work

variable {α β γ : Type} {now : Instant}

/-- From a world, two pieces of work end in the same value or stop for the
same reason, and leave worlds that differ in their logs at most. -/
def EndsAs (w : World) (x y : Work α) : Prop :=
  (x.exec w).1 = (y.exec w).1 ∧ (x.exec w).2.unlogged = (y.exec w).2.unlogged

/-- From worlds that differ in their logs at most, at an instant, work ends
in the same value or stops for the same reason, and leaves worlds that
differ in their logs at most. -/
structure AmountsTo (now : Instant) (x y : Work α) : Prop where
  ends : ∀ {w w' : World}, w.SameAt now w' →
    (x.exec w).1 = (y.exec w').1 ∧ (x.exec w).2.SameAt now (y.exec w').2

namespace AmountsTo

variable {x y z : Work α} {f g : α → Work β}

theorem symm (h : AmountsTo now x y) : AmountsTo now y x where
  ends same :=
    have ⟨result, left⟩ := h.ends same.symm
    ⟨result.symm, left.symm⟩

theorem trans (h : AmountsTo now x y) (h' : AmountsTo now y z) : AmountsTo now x z where
  ends {w w'} same := by
    have ⟨result, left⟩ := h.ends same
    have ⟨result', left'⟩ := h'.ends (w := w') ⟨same.symm.now, rfl⟩
    exact ⟨result.trans result', left.now, left.unlogged.trans left'.unlogged⟩

theorem endsAs {w : World} (h : AmountsTo w.now x y) : EndsAs w x y :=
  have ⟨result, left⟩ := h.ends (.refl w)
  ⟨result, left.unlogged⟩

theorem pure (a : α) : AmountsTo now (Pure.pure a) (Pure.pure a) := ⟨fun same => ⟨rfl, same⟩⟩

theorem bind (hx : AmountsTo now x y) (hf : ∀ a, AmountsTo now (f a) (g a)) :
    AmountsTo now (x >>= f) (y >>= g) := by
  refine ⟨fun {w w'} same => ?_⟩
  have ⟨result, left⟩ := hx.ends same
  rw [exec_bind, exec_bind]
  rcases hxw : x.exec w with ⟨stop | a, w₁⟩ <;> rcases hyw : y.exec w' with ⟨stop' | a', w₁'⟩ <;>
    rw [hxw, hyw] at result left <;> cases result
  · exact ⟨rfl, left⟩
  · exact (hf a).ends left

/-- Work that takes the same value from worlds that differ in their logs,
and changes them to such worlds, at the same time. -/
theorem of_modifyGet {f : World → α × World} (value : ∀ w, (f w).1 = (f w.unlogged).1)
    (left : ∀ w, (f w).2.unlogged = (f w.unlogged).2.unlogged) (clock : ∀ w, (f w).2.now = w.now) :
    AmountsTo now (modifyGet f) (modifyGet f) := by
  refine ⟨fun {w w'} same => ?_⟩
  show Except.ok (f w).1 = Except.ok (f w').1 ∧ (f w).2.SameAt now (f w').2
  refine ⟨?_, (clock w).trans same.now, ?_⟩
  · rw [value w, value w', same.unlogged]
  · rw [left w, left w', same.unlogged]

/-- Work that looks at something besides the log. -/
theorem of_get {look : World → γ} {f g : γ → Work β} (unlogged : ∀ w, look w = look w.unlogged)
    (h : ∀ c, AmountsTo now (f c) (g c)) :
    AmountsTo now (get >>= fun w => f (look w)) (get >>= fun w => g (look w)) := by
  refine ⟨fun {w w'} same => ?_⟩
  have seen : look w = look w' := by rw [unlogged w, unlogged w', same.unlogged]
  show ((f (look w)).exec w).1 = ((g (look w')).exec w').1 ∧
    ((f (look w)).exec w).2.SameAt now ((g (look w')).exec w').2
  rw [seen]
  exact (h _).ends same

/-- The work after a report amounts to the same without the report. -/
theorem after_report {e : LogEvent} {f : Unit → Work β} {y : Work β} (h : AmountsTo now (f ()) y) :
    AmountsTo now (report e >>= f) y where
  ends same := h.ends ⟨same.now, same.unlogged⟩

theorem after_reports {es : List LogEvent} {f : Unit → Work β} {y : Work β} (h : AmountsTo now (f ()) y) :
    AmountsTo now (es.forM report >>= f) y := by
  induction es with
  | nil => exact h
  | cons e rest ih =>
    rw [show (e :: rest).forM report = report e >>= fun _ => rest.forM report from rfl, bind_assoc]
    exact after_report ih

/-- Work amounts to the same if its value is reported in the end. -/
theorem reporting {e : α → LogEvent} (h : AmountsTo now x y) :
    AmountsTo now (do let a ← x; report (e a); return a) y := by
  rw [← bind_pure y]
  exact h.bind fun a => after_report (.pure a)

/-- Work that looks at the world amounts to what it does in each world of
that time. -/
theorem at_clock {f : World → Work β} {y : Work β} (h : ∀ w, w.now = now → AmountsTo now (f w) y) :
    AmountsTo now (get >>= f) y where
  ends {w _} same := (h w same.now).ends same

theorem mapM {f g : α → Work β} {l : List α} (each : ∀ a ∈ l, AmountsTo now (f a) (g a)) :
    AmountsTo now (l.mapM f) (l.mapM g) := by
  induction l with
  | nil => exact .pure []
  | cons a rest ih =>
    rw [List.mapM_cons, List.mapM_cons]
    refine (each a List.mem_cons_self).bind fun b => ?_
    exact (ih fun a' ha' => each a' (List.mem_cons_of_mem a ha')).bind fun bs => .pure (b :: bs)

end AmountsTo

/-- Work takes no notice of what is in the log. -/
abbrev Heedless (now : Instant) (x : Work α) : Prop := AmountsTo now x x

theorem heedless_analyzing (now : Instant) : Analyzing (Heedless now) where
  pure := .pure
  throw _ := ⟨fun same => ⟨rfl, same⟩⟩
  bind := .bind
  report _ := .of_modifyGet (fun _ => rfl) (fun _ => rfl) fun _ => rfl
  record _ := .of_modifyGet (fun _ => rfl) (fun _ => rfl) fun _ => rfl
  freshId := .of_modifyGet (fun _ => rfl) (fun _ => rfl) fun _ => rfl
  outage _ := .of_modifyGet (fun _ => rfl) (fun _ => rfl) fun _ => rfl
  store hf := .of_get (fun _ => rfl) hf
  directory hf := .of_get (fun _ => rfl) hf
  clock hf := .of_get (fun _ => rfl) hf
  send _ := .of_modifyGet (fun _ => rfl) (fun _ => rfl) fun _ => rfl
  recordSave _ := .of_modifyGet (fun _ => rfl) (fun _ => rfl) fun _ => rfl
  setStore _ := .of_modifyGet (fun _ => rfl) (fun _ => rfl) fun _ => rfl
  openSlot _ _ := .of_modifyGet (fun _ => rfl) (fun _ => rfl) fun _ => rfl
  setSlot _ _ _ := .of_modifyGet (fun _ => rfl) (fun _ => rfl) fun _ => rfl

end Work
end UsageDiary
