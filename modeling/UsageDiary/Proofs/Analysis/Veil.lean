import UsageDiary.Proofs.Analysis.Requests

/-!
# Addresses visited do not leak

The address of a visit reaches nothing but the messages to its user. Two
runs of analyses that differ in addresses alone answer every request with
the same, and leave the same behind up to the addresses in those messages
(`addresses_do_not_leak`): the same days and weeks, the same cache, the same
messages to buddies.

A run is compared with the one whose addresses are blanked out. Work on
blanked input in a blanked world ends as the work itself does, blanked
(`Work.Veils`). A merge takes no notice of the address at all
(`Work.merge_veiled`), and the copy for buddies never holds one.
-/

namespace UsageDiary

/-! ## Blanking addresses -/

/-- An address blanked out, if there is one. -/
def blank (url : Option String) : Option String := url.map fun _ => ""

def Notification.veiled (n : Notification) : Notification := { n with url := blank n.url }

/-- A message with its address blanked out, if it goes to a user. -/
def Dispatch.veiled : Dispatch → Dispatch
  | toUser destination n => toUser destination n.veiled
  | toBuddies destinations n => toBuddies destinations n

/-- The world with the addresses in messages to users blanked out. -/
def World.veiled (w : World) : World := { w with sent := w.sent.map (·.veiled) }

def UsageEvent.veiled (e : UsageEvent) : UsageEvent := { e with url := blank e.url }

def NetworkVisit.veiled (visit : NetworkVisit) : NetworkVisit := { visit with url := "" }

/-- A request with the address of a visit blanked out. -/
def Request.veiled : Request → Request
  | network user visit => network user visit.veiled
  | q => q

/-! ## Work on blanked input -/

namespace Work

variable {α β γ δ : Type} {x : Work α} {y : Work β} {h : α → β} {k : γ → δ}

/-- Work on blanked input, in a blanked world, ends as work ends, blanked. -/
structure Veils (h : α → β) (x : Work α) (y : Work β) : Prop where
  ends : ∀ w : World, y.exec w.veiled = ((x.exec w).1.map h, (x.exec w).2.veiled)

namespace Veils

theorem pure (a : α) : Veils h (pure a) (pure (h a)) := ⟨fun _ => rfl⟩

theorem throw (stop : Stop) : Veils h (throw stop) (throw stop) := ⟨fun _ => rfl⟩

theorem bind {f : α → Work γ} {g : β → Work δ} (hx : Veils h x y) (hf : ∀ a, Veils k (f a) (g (h a))) :
    Veils k (x >>= f) (y >>= g) := by
  refine ⟨fun w => ?_⟩
  rw [exec_bind, exec_bind, hx.ends w]
  rcases x.exec w with ⟨stop | a, w'⟩
  · rfl
  · exact (hf a).ends w'

theorem ite {c : Prop} [Decidable c] {x' : Work α} {y' : Work β} (hx : Veils h x y) (hx' : Veils h x' y') :
    Veils h (if c then x else x') (if c then y else y') := by
  split
  · exact hx
  · exact hx'

theorem get {f : World → Work α} {g : World → Work β} (hf : ∀ w, Veils h (f w) (g w.veiled)) :
    Veils h (get >>= f) (get >>= g) :=
  ⟨fun w => (hf w).ends w⟩

theorem mapM {ι κ : Type} {item : ι → κ} {f : ι → Work α} {g : κ → Work α}
    (each : ∀ i, Veils id (f i) (g (item i))) (l : List ι) :
    Veils id (l.mapM f) ((l.map item).mapM g) := by
  induction l with
  | nil => exact .pure []
  | cons i rest ih =>
    rw [List.map_cons, List.mapM_cons, List.mapM_cons]
    exact (each i).bind fun a => ih.bind fun as => .pure (a :: as)

end Veils

/-- Work takes no notice of the addresses in messages that were sent. -/
abbrev IsVeiled (x : Work α) : Prop := Veils id x x

theorem veiled_inquiring : Inquiring IsVeiled where
  pure a := .pure a
  throw stop := .throw stop
  bind hx hf := .bind hx hf
  report _ := ⟨fun _ => rfl⟩
  record _ := ⟨fun _ => rfl⟩
  freshId := ⟨fun _ => rfl⟩
  outage _ := ⟨fun _ => rfl⟩
  store hf := .get fun w => hf w.store
  directory hf := .get fun w => hf w.directory

theorem veiled_merging : Merging IsVeiled where
  toLooking := veiled_inquiring.toLooking
  recordSave _ := ⟨fun _ => rfl⟩
  setStore _ := ⟨fun _ => rfl⟩
  openSlot _ _ := ⟨fun _ => rfl⟩
  setSlot _ _ _ := ⟨fun _ => rfl⟩

/-! ## Parts of an analysis -/

/-- A merge takes no notice of the address of its event. -/
theorem merge_veiled (s : Settings) (user : User) (goal : Id) (e : UsageEvent) :
    merge s user goal e.veiled = merge s user goal e := by
  have applies (d : Day) (opened : Bool) : apply s d opened (e.veiled.fit d) = apply s d opened (e.fit d) := by
    have fit : e.veiled.fit d = (e.fit d).veiled := by
      unfold UsageEvent.fit
      rw [apply_ite UsageEvent.veiled]
      rfl
    rw [fit]
    rfl
  unfold merge
  simp only [applies]
  rfl

theorem split_veils (zone : Zone) (e : UsageEvent) :
    Veils (List.map UsageEvent.veiled) (e.split zone) (e.veiled.split zone) := by
  unfold UsageEvent.split
  refine (veiled_inquiring.inRange _).bind fun date => ?_
  refine (veiled_inquiring.ofZone _).bind fun next => .ite (.pure [e]) ?_
  refine (veiled_inquiring.inRange _).bind fun endDate => ?_
  refine (veiled_inquiring.ofZone _).bind fun start => ?_
  refine (veiled_inquiring.report _).bind fun _ => .ite ?_ ?_
  · exact .pure [{ e with ends := next }, { e with starts := start }]
  · exact .pure [{ e with ends := next }]

theorem dispatch_veils (call : CallKind) (d : Dispatch) :
    Veils id (dispatch call d) (dispatch call d.veiled) := by
  refine (veiled_inquiring.meetOutage call).bind fun met => ?_
  cases met with
  | some o => exact .throw _
  | none =>
    refine ⟨fun w => congrArg (Prod.mk _) ?_⟩
    show { w.veiled with sent := w.veiled.sent ++ [d.veiled] } = World.veiled { w with sent := w.sent ++ [d] }
    simp [World.veiled]

theorem notify_veils (user : User) (goal : Goal) (x : Activity) (url : Option String) :
    Veils Notification.veiled (notify user goal x url) (notify user goal x (blank url)) := by
  unfold notify
  refine veiled_inquiring.freshId.bind fun id => .get fun w => ?_
  have sends := dispatch_veils .send
    (.toUser user.destination ⟨id, user.id, goal.id, goal.category, x, url, w.now⟩)
  refine sends.bind fun _ => .ite ?_ ?_
  · refine veiled_inquiring.freshId.bind fun id' => (dispatch_veils _ _).bind fun _ => ?_
    exact (veiled_inquiring.report _).bind fun _ => .pure _
  · exact (veiled_inquiring.report _).bind fun _ => .pure _

end Work

/-! ## Analyses -/

namespace Analyzer

variable (a : Analyzer) (user : User)

theorem processOne_veils (part : UsageEvent) (goal : Goal) :
    Work.Veils id (a.processOne user part goal) (a.processOne user part.veiled goal) := by
  unfold processOne
  rw [Work.merge_veiled]
  refine Work.Veils.bind (Work.veiled_merging.merge ..) fun r => .ite ?_ (.pure _)
  exact (Work.notify_veils ..).bind fun _ => .pure _

theorem process_veils (goals : List Goal) (e : UsageEvent) :
    Work.Veils id (a.process user goals e) (a.process user goals e.veiled) := by
  unfold process processBy
  refine (Work.split_veils user.zone e).bind fun parts => ?_
  have under (part : UsageEvent) : Work.Veils id (goals.mapM (a.processOne user part))
      (goals.mapM (a.processOne user part.veiled)) := by
    simpa using Work.Veils.mapM (fun g => a.processOne_veils user part g) goals
  exact (Work.Veils.mapM under parts).bind fun outcomes => .pure _

theorem network_veils (visit : NetworkVisit) :
    Work.Veils id (a.network user visit) (a.network user visit.veiled) := by
  unfold network networkBy
  refine .ite (.pure _) (.get fun w => ?_)
  refine Work.Veils.bind (Work.veiled_inquiring.matchingGoals ..) fun goals => .ite (.pure _) ?_
  have process := a.process_veils user goals ⟨visit.time.getD w.now, visit.time.getD w.now, visit.device, none,
    some (truncateUrl visit.url a.settings.maxUrlLength)⟩
  have cut : truncateUrl "" a.settings.maxUrlLength = "" := by simp [truncateUrl]
  rw [show visit.veiled.url = "" from rfl, cut]
  exact process.bind fun outcomes => (Work.veiled_inquiring.report _).bind fun _ => .pure _

theorem use_veils (device : Option Id) (u : AppUse) : Work.IsVeiled (a.use user device u) := by
  unfold use useBy
  refine Work.Veils.bind (Work.veiled_inquiring.matchingGoals ..) fun goals => .ite (.pure _) ?_
  exact a.process_veils user goals ⟨u.starts, u.ends, device, some u.application, none⟩

theorem app_veils (report : AppReport) : Work.IsVeiled (a.app user report) := by
  unfold app appBy
  cases report.uses.find? fun u => u.ends < u.starts with
  | some u => exact .throw _
  | none =>
    refine .get fun w => ?_
    refine Work.Veils.bind (Work.veiled_inquiring.forM Work.veiled_inquiring.report) fun _ => ?_
    refine Work.Veils.bind (Work.veiled_inquiring.mapM (Work.veiled_inquiring.correctUse _)) fun uses => ?_
    refine Work.Veils.bind (Work.veiled_inquiring.mapM (a.use_veils user report.device)) fun outcomes => ?_
    exact (Work.veiled_inquiring.report _).bind fun _ => .pure _

end Analyzer

/-! ## Runs -/

theorem Request.run_veils (a : Analyzer) (q : Request) : Work.Veils id (q.run a) (q.veiled.run a) := by
  cases q with
  | network user visit => exact (a.network_veils user visit).bind fun r => .pure _
  | app user report => exact (a.app_veils user report).bind fun r => .pure _
  | invalidate user =>
    have empties : Work.IsVeiled (Work.invalidate user) :=
      Work.Veils.bind ⟨fun _ => rfl⟩ fun count => (Work.veiled_inquiring.report _).bind fun _ => .pure _
    exact empties.bind fun count => .pure _
  | surroundings => exact ⟨fun _ => rfl⟩

namespace World

variable {a : Analyzer} {w : World}

/-- A request with its address blanked out is answered with the same. -/
theorem serve_veiled (q : Request) : ((q.veiled.run a).exec w.veiled).1 = ((q.run a).exec w).1 ∧
    w.veiled.serve a q.veiled = (w.serve a q).veiled := by
  have ends := (q.run_veils a).ends w
  rw [serve, serve, ends]
  refine ⟨?_, rfl⟩
  cases ((q.run a).exec w).1 <;> rfl

theorem served_veiled (qs : List Request) : w.veiled.replies a (qs.map (·.veiled)) = w.replies a qs ∧
    w.veiled.served a (qs.map (·.veiled)) = (w.served a qs).veiled := by
  induction qs generalizing w with
  | nil => exact ⟨rfl, rfl⟩
  | cons q rest ih =>
    obtain ⟨reply, after⟩ := serve_veiled (a := a) (w := w) q
    obtain ⟨replies, served⟩ := ih (w := w.serve a q)
    rw [← after] at replies served
    exact ⟨congrArg₂ List.cons reply replies, served⟩

end World

/-- Whatever the state and the outages: two runs of requests that differ in
the addresses of visits alone are answered with the same, and leave worlds
that differ in nothing but the addresses in messages to users. -/
theorem addresses_do_not_leak (a : Analyzer) (w : World) {qs qs' : List Request}
    (alike : qs.map (·.veiled) = qs'.map (·.veiled)) :
    w.replies a qs = w.replies a qs' ∧ (w.served a qs).veiled = (w.served a qs').veiled := by
  obtain ⟨replies, served⟩ := World.served_veiled (a := a) (w := w) qs
  obtain ⟨replies', served'⟩ := World.served_veiled (a := a) (w := w) qs'
  rw [alike] at replies served
  exact ⟨replies.symm.trans replies', served.symm.trans served'⟩

/-- The user is told of different addresses, and nothing else differs. -/
theorem Sample.addresses_told :
    (counting.served analyzer [.network watched (mailRead "inbox")]).sent ≠
      (counting.served analyzer [.network watched (mailRead "drafts")]).sent ∧
    counting.replies analyzer [.network watched (mailRead "inbox")] =
      counting.replies analyzer [.network watched (mailRead "drafts")] ∧
    (counting.served analyzer [.network watched (mailRead "inbox")]).veiled =
      (counting.served analyzer [.network watched (mailRead "drafts")]).veiled :=
  ⟨by decide +kernel, addresses_do_not_leak analyzer counting rfl⟩

end UsageDiary
