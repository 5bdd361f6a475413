import UsageDiary.Analysis
import UsageDiary.Proofs.Merge.Step

/-!
# What holds of all work

Work is put together from a few kinds of steps. A property of work that these
steps have, and that work has if a step and what follows it have it, is one
of every merge: `Looking.place` for what only looks at the store,
`Saving.recordEvent` for what saves as well, `Merging.merge` for what works
on the slots too, `Inquiring.matchingGoals` for what an analysis looks up
before it merges, `Notifying.notify` for what it does when a goal is broken,
and `Analyzing.use` for all that it does with the use of an application.
Each function is gone through once, here.
-/

namespace UsageDiary

/-- The call saves something. -/
def Call.isSave : Call → Bool
  | saveDay .. | saveWeek .. => true
  | _ => false

namespace Work

variable {holds : ∀ {α : Type}, Work α → Prop} {α β : Type}

theorem of_ite {c : Prop} [Decidable c] {x y : Work α} (hx : holds x) (hy : holds y) :
    holds (if c then x else y) := by
  split
  · exact hx
  · exact hy

/-! ## Looking at the store -/

/-- A property of work that looks at the store, draws ids, and notes and
reports what it does, but notes no save. -/
structure Looking (holds : ∀ {α : Type}, Work α → Prop) : Prop where
  pure : ∀ {α : Type} (a : α), holds (pure a : Work α)
  throw : ∀ {α : Type} (stop : Stop), holds (throw stop : Work α)
  bind : ∀ {α β : Type} {x : Work α} {f : α → Work β}, holds x → (∀ a, holds (f a)) → holds (x >>= f)
  report : ∀ e : LogEvent, holds (report e)
  record : ∀ {c : Call}, c.isSave = false → holds (record c)
  freshId : holds freshId
  outage : ∀ call : CallKind, holds (modifyGet fun w =>
    ((Outage.meet call w.outages).1, { w with outages := (Outage.meet call w.outages).2 }) :
      Work (Option Outage))
  store : ∀ {α : Type} {f : Store → Work α}, (∀ store, holds (f store)) →
    holds (get >>= fun w => f w.store)

namespace Looking

variable (h : Looking holds)
include h

/-- A step that is taken under a condition, and the work after it. -/
theorem ite_bind {c : Prop} [Decidable c] {x : Work Unit} {k : Unit → Work β} (hx : holds x)
    (hk : holds (k ())) : holds (if c then x >>= k else k ()) :=
  of_ite (h.bind hx fun _ => hk) hk

theorem fail (e : AnalysisError) : holds (fail e : Work α) := h.throw _

theorem inRange (a? : Option α) : holds (inRange a?) := by
  cases a? with
  | some a => exact h.pure a
  | none => exact h.throw _

theorem ofZone (r : Except ZoneError α) : holds (ofZone r) := by
  cases r with
  | ok a => exact h.pure a
  | error e => exact h.fail _

theorem respecting (r : Except Violation α) : holds (respecting r) := by
  cases r with
  | ok a => exact h.pure a
  | error v => exact h.bind (h.report _) fun _ => h.fail _

theorem forM {l : List α} {f : α → Work Unit} (hf : ∀ a, holds (f a)) : holds (l.forM f) := by
  induction l with
  | nil => exact h.pure ()
  | cons a rest ih =>
    exact h.bind (hf a) fun _ => ih

theorem mapM {l : List α} {f : α → Work β} (hf : ∀ a, holds (f a)) : holds (l.mapM f) := by
  induction l with
  | nil => exact h.pure []
  | cons a rest ih =>
    rw [List.mapM_cons]
    exact h.bind (hf a) fun b => h.bind ih fun bs => h.pure _

theorem foldlM {f : β → α → Work β} (hf : ∀ b a, holds (f b a)) (l : List α) (b : β) :
    holds (l.foldlM f b) := by
  induction l generalizing b with
  | nil => exact h.pure b
  | cons a rest ih =>
    rw [List.foldlM_cons]
    exact h.bind (hf b a) fun b' => ih b'

theorem meetOutage (call : CallKind) : holds (meetOutage call) := by
  refine h.bind (h.outage call) fun met => ?_
  exact h.ite_bind (h.record rfl) (h.pure _)

theorem guarded {call : CallKind} {x : Work α} (hx : holds x) : holds (guarded call x) := by
  refine h.bind (h.meetOutage call) fun met => ?_
  cases met with
  | some o => exact h.fail _
  | none => exact hx

theorem answer (reply : Store.Reply α) : holds (answer reply) := by
  refine h.bind (h.forM h.report) fun _ => ?_
  cases reply.result with
  | ok a => exact h.pure a
  | error e => exact h.fail _

theorem query {call : CallKind} (query : Store → Store.Reply α) {note : α → Call}
    (noted : ∀ a, (note a).isSave = false) :
    holds (Work.guarded call do
      let found ← Work.answer (query (← get).store)
      Work.record (note found)
      return found) :=
  h.guarded (h.store (f := fun store =>
    Work.answer (query store) >>= fun found => Work.record (note found) >>= fun _ => Pure.pure found) fun _ =>
      h.bind (h.answer _) fun _ => h.bind (h.record (noted _)) fun _ => h.pure _)

theorem findLast (user goal : Id) : holds (findLast user goal) :=
  h.query (·.findLast user goal) fun _ => rfl

theorem findDay (user goal : Id) (date : Date) : holds (findDay user goal date) :=
  h.query (·.findDay user goal date) fun _ => rfl

theorem findWeek (user goal : Id) (start : Date) : holds (findWeek user goal start) :=
  h.query (·.findWeek user goal start) fun _ => rfl

/-- By induction on the zones to try and unlisted: each step leaves one
fewer of them. -/
theorem searchPreceding (user goal : Id) (t : Instant) (toTry unlisted : List Zone)
    (free : Option (Zone × Date)) : holds (searchPreceding user goal t toTry unlisted free) := by
  induction size : toTry.length + unlisted.length using Nat.strongRecOn generalizing toTry unlisted free with
  | ind n ih =>
  cases toTry with
  | nil =>
    cases free with
    | some found =>
      rw [Work.searchPreceding]
      exact h.pure _
    | none =>
      rw [Work.searchPreceding]
      exact h.bind (h.report _) fun _ => h.fail _
  | cons zone rest =>
    rw [Work.searchPreceding]
    rw [List.length_cons] at size
    refine h.bind (h.inRange _) fun date => h.bind (h.findDay user goal date) fun found => ?_
    cases found with
    | none => exact ih _ (by omega) _ _ _ rfl
    | some d =>
      refine of_ite (h.pure _) ?_
      split
      · next hz =>
        have erased := List.length_erase_of_mem hz
        have positive := List.length_pos_of_mem hz
        refine ih _ ?_ _ _ _ rfl
        simp only [List.length_append, List.length_cons, List.length_nil]
        omega
      · exact ih _ (by omega) _ _ _ rfl

theorem place (slot : Slot) (user : User) (goal : Id) (t : Instant) : holds (place slot user goal t) := by
  refine h.bind (h.inRange _) fun userDate => ?_
  cases slot.day with
  | none => exact h.pure _
  | some c =>
    refine of_ite (h.pure _) (of_ite (of_ite (h.pure _) ?_) ?_)
    · exact h.bind (h.inRange _) fun _ => h.pure _
    · exact h.store (f := fun store => Work.searchPreceding user.id goal t (firstZones user.zone c.zone)
        (store.zones.filter (· ∉ firstZones user.zone c.zone)) none) fun _ => h.searchPreceding ..

theorem takeDay (user goal : Id) (p : Placement) : holds (takeDay user goal p) := by
  have opens : holds (do
      let d ← Work.ofZone (Day.create (← Work.freshId) user goal p.zone p.date)
      return (d, true)) :=
    h.bind h.freshId fun _ => h.bind (h.ofZone _) fun _ => h.pure _
  obtain ⟨lookup, zone, date⟩ := p
  cases lookup with
  | empty => exact opens
  | following => exact opens
  | current d => exact h.pure _
  | preceding d? =>
    cases d? with
    | none => exact opens
    | some d => exact h.pure _

theorem apply (s : Settings) (d : Day) (opened : Bool) (e : UsageEvent) : holds (apply s d opened e) := by
  refine h.bind (h.inRange _) fun decision => ?_
  cases decision with
  | create =>
    exact h.bind (h.inRange _) fun _ => h.bind h.freshId fun _ =>
      h.bind (h.respecting _) fun _ => h.pure _
  | extend id => exact h.bind (h.respecting _) fun _ => h.pure _
  | absorb a => exact h.pure _

theorem split (zone : Zone) (e : UsageEvent) : holds (e.split zone) := by
  refine h.bind (h.inRange _) fun _ => h.bind (h.ofZone _) fun _ => of_ite (h.pure _) ?_
  refine h.bind (h.inRange _) fun _ => h.bind (h.ofZone _) fun _ => ?_
  exact h.bind (h.report _) fun _ => of_ite (h.pure _) (h.pure _)

theorem correctUse (offset : Duration) (u : AppUse) : holds (Analyzer.correctUse offset u) :=
  h.bind (h.inRange _) fun _ => h.pure _

end Looking

/-! ## Saving -/

/-- A property of work that saves days and weeks as well. -/
structure Saving (holds : ∀ {α : Type}, Work α → Prop) : Prop extends Looking holds where
  recordSave : ∀ {c : Call}, c.isSave = true → holds (Work.record c)
  setStore : ∀ store : Store, holds (modify fun w => { w with store := store } : Work Unit)

namespace Saving

variable (h : Saving holds)
include h

theorem note (c : Call) : holds (Work.record c) := by
  cases saves : c.isSave with
  | true => exact h.recordSave saves
  | false => exact h.record saves

theorem save {call : CallKind} (save : Store → Store.Reply Store) (note : Call) :
    holds (guarded call do
      record note
      let store ← answer (save (← get).store)
      modify fun w => { w with store := store }) := by
  refine h.guarded (h.bind (h.note _) fun _ => h.store (f := fun store =>
    answer (save store) >>= fun saved => modify fun w => { w with store := saved }) fun store => ?_)
  exact h.bind (h.answer _) fun saved => h.setStore saved

theorem saveDay (d : Day) : holds (saveDay d) := h.save (·.saveDay d) _

theorem saveWeek (week : Week) : holds (saveWeek week) := h.save (·.saveWeek week) _

theorem recordEvent (s : Settings) (slot : Slot) (user : User) (goal : Id) (e : UsageEvent) :
    holds (recordEvent s slot user goal e) := by
  refine h.bind (h.place ..) fun p => h.bind (h.report _) fun _ => ?_
  refine h.bind (h.takeDay ..) fun taken => h.ite_bind (h.report _) ?_
  exact h.bind (h.apply ..) fun r => h.ite_bind (h.saveDay _) (h.pure _)

theorem attachTo (isNew : Bool) (week : Week) (d : Day) : holds (attachTo isNew week d) := by
  refine h.bind (h.respecting _) fun attached => of_ite ?_ (h.pure _)
  exact h.bind (h.saveWeek _) fun _ => h.bind (h.report _) fun _ => h.pure _

theorem attachDay (d : Day) : holds (attachDay d) := by
  refine h.bind (h.findWeek ..) fun found => ?_
  cases found with
  | none => exact h.bind h.freshId fun _ => h.attachTo true _ d
  | some week => exact h.attachTo false week d

end Saving

/-! ## Working on the slots -/

/-- A property of work that reads and sets slots as well. -/
structure Merging (holds : ∀ {α : Type}, Work α → Prop) : Prop extends Saving holds where
  openSlot : ∀ user goal : Id, holds (openSlot user goal)
  setSlot : ∀ (user goal : Id) (slot : Slot), holds (setSlot user goal slot)

namespace Merging

variable (h : Merging holds)
include h

theorem loadedSlot (user goal : Id) : holds (loadedSlot user goal) := by
  refine h.bind (h.openSlot user goal) fun slot => of_ite (h.pure _) ?_
  exact h.bind (h.findLast user goal) fun _ => h.bind (h.setSlot ..) fun _ => h.pure _

theorem attachPending (user goal : Id) (pending cached : Bool) (d : Day) :
    holds (attachPending user goal pending cached d) := by
  refine of_ite (h.bind (h.attachDay d) fun _ => of_ite ?_ (h.pure _)) (h.pure _)
  exact h.bind (h.openSlot ..) fun _ => h.setSlot ..

theorem settle (slot : Slot) (user goal : Id) (p : Placement) (r : Merged) :
    holds (settle slot user goal p r) := by
  unfold Work.settle
  refine h.ite_bind (h.setSlot ..) ?_
  exact h.bind (h.attachPending ..) fun _ => h.bind (h.report _) fun _ => h.pure _

theorem merge (s : Settings) (user : User) (goal : Id) (e : UsageEvent) : holds (merge s user goal e) := by
  rw [merge_eq]
  exact h.bind (h.loadedSlot ..) fun slot => h.bind (h.recordEvent ..) fun _ => h.settle ..

end Merging

/-! ## Looking up goals -/

/-- A property of work that looks at the directory of categories as well. -/
structure Inquiring (holds : ∀ {α : Type}, Work α → Prop) : Prop extends Looking holds where
  directory : ∀ {α : Type} {f : List (String × List Id) → Work α}, (∀ found, holds (f found)) →
    holds (get >>= fun w => f w.directory)

namespace Inquiring

variable (h : Inquiring holds)
include h

theorem categoriesOf (label : String) : holds (categoriesOf label) := by
  refine h.bind (h.meetOutage _) fun met => ?_
  cases met with
  | some o => exact h.fail _
  | none =>
    exact h.directory (f := fun directory => do
      let found := insertIds (directory.lookup label |>.getD []) []
      Work.record (.categories label found.length)
      return found) fun _ => h.bind (h.record rfl) fun _ => h.pure _

theorem categoriesFor (labels : List String) : holds (categoriesFor labels) :=
  h.foldlM (fun _ label => h.bind (h.categoriesOf label) fun _ => h.pure _) labels []

theorem goalsOf (user : User) : holds (goalsOf user) := by
  refine h.bind (h.meetOutage _) fun met => ?_
  cases met with
  | some o => exact h.fail _
  | none => exact h.bind (h.record rfl) fun _ => h.pure _

theorem matchingGoals (user : User) (labels : List String) (t : Instant) :
    holds (matchingGoals user labels t) :=
  h.bind (h.categoriesFor labels) fun _ => of_ite (h.pure _) (h.bind (h.goalsOf user) fun _ =>
    h.bind (h.report _) fun _ => h.pure _)

end Inquiring

/-! ## Notifying -/

/-- What is left to do of a notification once the user has it. -/
def tellBuddies (user : User) (goal : Id) (n : Notification) : Work Notification := do
  let buddies := user.acceptedBuddies.map (·.destination)
  if !buddies.isEmpty then
    dispatch .broadcast (.toBuddies buddies (n.redacted (← freshId)))
  report (dispatched user.id goal buddies.length)
  return n

theorem notify_eq (user : User) (goal : Goal) (x : Activity) (url : Option String) :
    notify user goal x url = (do
      let n : Notification := ⟨← freshId, user.id, goal.id, goal.category, x, url, (← get).now⟩
      dispatch .send (.toUser user.destination n)
      tellBuddies user goal.id n) := rfl

/-- A property of work that reads the clock and sends messages as well. -/
structure Notifying (holds : ∀ {α : Type}, Work α → Prop) : Prop extends Inquiring holds where
  clock : ∀ {α : Type} {f : Instant → Work α}, (∀ now, holds (f now)) →
    holds (get >>= fun w => f w.now)
  send : ∀ d : Dispatch, holds (modify fun w => { w with sent := w.sent ++ [d] } : Work Unit)

namespace Notifying

variable (h : Notifying holds)
include h

theorem dispatch (call : CallKind) (d : Dispatch) : holds (dispatch call d) := by
  refine h.bind (h.meetOutage call) fun met => ?_
  cases met with
  | some o => exact h.fail _
  | none => exact h.send d

theorem tellBuddies (user : User) (goal : Id) (n : Notification) : holds (tellBuddies user goal n) := by
  have reports := h.bind (h.report (dispatched user.id goal (user.acceptedBuddies.map (·.destination)).length))
    fun _ => h.pure n
  exact of_ite (h.bind h.freshId fun _ => h.bind (h.dispatch ..) fun _ => reports) reports

theorem notify (user : User) (goal : Goal) (x : Activity) (url : Option String) :
    holds (notify user goal x url) := by
  rw [notify_eq]
  refine h.bind h.freshId fun id => h.clock (f := fun now => do
    Work.dispatch .send (.toUser user.destination ⟨id, user.id, goal.id, goal.category, x, url, now⟩)
    Work.tellBuddies user goal.id ⟨id, user.id, goal.id, goal.category, x, url, now⟩) fun now => ?_
  exact h.bind (h.dispatch ..) fun _ => h.tellBuddies ..

end Notifying

/-! ## Analyses -/

/-- A property of work that analyzes usage. -/
structure Analyzing (holds : ∀ {α : Type}, Work α → Prop) : Prop extends Notifying holds, Merging holds

namespace Analyzing

variable (h : Analyzing holds) (a : Analyzer) (user : User)
include h

theorem processOne (part : UsageEvent) (goal : Goal) : holds (a.processOne user part goal) := by
  refine h.bind (h.merge ..) fun merged => of_ite ?_ (h.pure _)
  exact h.bind (h.notify ..) fun _ => h.pure _

theorem process (goals : List Goal) (e : UsageEvent) : holds (a.process user goals e) := by
  refine h.bind (h.split ..) fun parts => h.bind ?_ fun _ => h.pure _
  exact h.mapM fun part => h.mapM fun goal => h.processOne a user part goal

theorem use (device : Option Id) (u : AppUse) : holds (a.use user device u) :=
  h.bind (h.matchingGoals ..) fun _ => of_ite (h.pure _) (h.process ..)

end Analyzing
end Work
end UsageDiary
