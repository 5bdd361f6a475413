import UsageDiary.Proofs.Analysis.Requests

/-!
# Messages match the outcomes

What an analysis that succeeds has sent: for each outcome in turn, nothing,
or the notification of its conflict to the user and a copy to the buddies
that accepted (`analysis_announced`). Only outcomes that are marked as
conflicts are told, and all of them are.

Merging, splitting and matching send nothing and leave the clock alone
(`World.Silent`), so the messages of an analysis are those of its
notifications, one after the other (`Work.Sends.mapM`).
-/

namespace UsageDiary

/-! ## What is sent -/

/-- The user is told of a conflict, and then the buddies that accepted, all
of them at once and without the address. Their copy has an id of its own. -/
inductive User.Tells (user : User) (n : Notification) : List Dispatch → Prop where
  | alone (none : ∀ b ∈ user.buddies, b.status ≠ .accepted) : Tells user n [.toUser user.destination n]
  | buddies {id : Id} (some : ∃ b ∈ user.buddies, b.status = .accepted) (own : id ≠ n.id) :
      Tells user n [.toUser user.destination n,
        .toBuddies (user.acceptedBuddies.map (·.destination)) { n with id := id, url := none }]

/-- The messages for an outcome under a goal of a user, where the address
visited is `url` and the time `now`. -/
structure Goal.Announces (policy : ConflictPolicy) (user : User) (url : Option String) (now : Instant)
    (g : Goal) (o : GoalOutcome) (ds : List Dispatch) : Prop where
  owned : g ∈ user.goals
  goal : o.goal = g.id
  conflict : o.conflict = true ↔ g.kind = .noGo ∧ ((∃ x opened, o.outcome = .created x opened) ∨
    policy = .onEveryChange ∧ ∃ x, o.outcome = .extended x)
  silent : o.conflict = false → ds = []
  told : o.conflict = true →
    ∃ id, user.Tells ⟨id, user.id, g.id, g.category, o.outcome.activity, url, now⟩ ds

/-- Messages are those of some items in turn, each of which has its own. -/
def InTurn {α : Type} (each : α → List Dispatch → Prop) (as : List α) (ds : List Dispatch) : Prop :=
  ∃ dss, ds = dss.flatten ∧ List.Forall₂ each as dss

theorem InTurn.flatten {α : Type} {each : α → List Dispatch → Prop} {ass : List (List α)}
    {ds : List Dispatch} (h : InTurn (InTurn each) ass ds) : InTurn each ass.flatten ds := by
  obtain ⟨dss, rfl, all⟩ := h
  induction all with
  | nil => exact ⟨[], rfl, .nil⟩
  | cons first _ ih =>
    obtain ⟨ess, rfl, own⟩ := first
    obtain ⟨rest, same, others⟩ := ih
    refine ⟨ess ++ rest, ?_, List.rel_append own others⟩
    rw [List.flatten_cons, List.flatten_append, same]

theorem ConflictPolicy.isConflict_iff {policy : ConflictPolicy} {g : Goal} {o : Outcome} :
    policy.isConflict g o = true ↔ g.kind = .noGo ∧ ((∃ x opened, o = .created x opened) ∨
      policy = .onEveryChange ∧ ∃ x, o = .extended x) := by
  cases policy <;> cases o <;> simp [isConflict, Goal.isNoGo]

/-! ## Work that sends messages -/

/-- The clock and the messages sent are as they were. -/
structure World.Silent (w w' : World) : Prop where
  now : w'.now = w.now
  sent : w'.sent = w.sent

instance : Std.Refl World.Silent := ⟨fun _ => ⟨rfl, rfl⟩⟩
instance : IsTrans World World.Silent :=
  ⟨fun _ _ _ h h' => ⟨h'.now.trans h.now, h'.sent.trans h.sent⟩⟩

namespace Work

variable {α β : Type} {x : Work α} {f : α → Work β} {w : World} {mid : α → List Dispatch → Prop}
  {post : β → List Dispatch → Prop}

/-- Work sends nothing and leaves the clock alone. -/
abbrev IsSilent (x : Work α) : Prop := Within World.Silent x

theorem silent_inquiring : Inquiring IsSilent :=
  Within.inquiring (fun _ _ => ⟨rfl, rfl⟩) (fun _ _ => ⟨rfl, rfl⟩) (fun _ => ⟨rfl, rfl⟩)
    fun _ _ => ⟨rfl, rfl⟩

theorem silent_merging : Merging IsSilent :=
  Within.merging (fun _ _ => ⟨rfl, rfl⟩) (fun _ _ => ⟨rfl, rfl⟩) (fun _ => ⟨rfl, rfl⟩)
    (fun _ _ => ⟨rfl, rfl⟩) (fun _ _ => ⟨rfl, rfl⟩) fun _ _ => ⟨rfl, rfl⟩

/-- Work that ends in a value has left the clock alone and sent messages of
which something holds. -/
def Sends (x : Work α) (w : World) (post : α → List Dispatch → Prop) : Prop :=
  WP x w (fun a w' => w'.now = w.now ∧ ∃ ds, w'.sent = w.sent ++ ds ∧ post a ds) fun _ _ => True

namespace Sends

theorem pure {a : α} {post : α → List Dispatch → Prop} (h : post a []) : Sends (pure a) w post :=
  WP.pure ⟨rfl, [], (List.append_nil _).symm, h⟩

theorem bind (hx : Sends x w mid) (hf : ∀ a ds w', w'.now = w.now → mid a ds →
    Sends (f a) w' fun b ds' => post b (ds ++ ds')) : Sends (x >>= f) w post := by
  refine WP.bind hx (fun a w₁ ⟨now, ds, sent, h⟩ => ?_) fun _ _ => id
  refine WP.mono (hf a ds w₁ now h) (fun b w₂ ⟨now', ds', sent', h'⟩ => ?_) fun _ _ => id
  exact ⟨now'.trans now, ds ++ ds', by rw [sent', sent, List.append_assoc], h'⟩

/-- Work that sends nothing, and what its value is. -/
theorem of_silent {value : α → Prop} (hx : IsSilent x) (h : WP x w (fun a _ => value a) fun _ _ => True) :
    Sends x w fun a ds => value a ∧ ds = [] :=
  (h.within hx).mono (fun _ _ ⟨h, silent⟩ =>
    ⟨silent.now, [], silent.sent.trans (List.append_nil _).symm, h, rfl⟩) fun _ _ _ => trivial

/-- Work after a step that sends nothing. -/
theorem after_silent {value : α → Prop} (hx : IsSilent x) (h : WP x w (fun a _ => value a) fun _ _ => True)
    (hf : ∀ a w', w'.now = w.now → value a → Sends (f a) w' post) : Sends (x >>= f) w post := by
  refine (of_silent hx h).bind fun a ds w' now ⟨ha, nothing⟩ => ?_
  subst nothing
  exact hf a w' now ha

/-- Each item has its messages sent before those of the next one. -/
theorem mapM {l : List α} (each : ∀ a ∈ l, ∀ w', w'.now = w.now → Sends (f a) w' post) :
    Sends (l.mapM f) w (InTurn post) := by
  induction l generalizing w with
  | nil => exact .pure ⟨[], rfl, .nil⟩
  | cons a rest ih =>
    rw [List.mapM_cons]
    refine (each a List.mem_cons_self w rfl).bind fun b ds w₁ now hb => ?_
    refine (ih fun a' ha' w' now' => each a' (List.mem_cons_of_mem a ha') w' (now'.trans now)).bind
      fun bs ds' w₂ _ hbs => .pure ?_
    obtain ⟨dss, rfl, all⟩ := hbs
    exact ⟨ds :: dss, by simp, .cons hb all⟩

end Sends

/-! ## Notifications -/

theorem sends_dispatch (call : CallKind) (d : Dispatch) (w : World) :
    Sends (dispatch call d) w fun _ ds => ds = [d] := by
  refine Sends.after_silent (silent_inquiring.meetOutage call) (any _ w) fun met w' _ _ => ?_
  cases met with
  | some o => exact trivial
  | none => exact ⟨rfl, [d], rfl, rfl⟩

/-- Once the user has a notification, the buddies that accepted get a copy
of it, under an id that was drawn later. -/
theorem tellBuddies_tells {user : User} {n : Notification} {w : World} (drawn : n.id.value < w.nextId)
    (goal : Id) : Sends (tellBuddies user goal n) w fun _ ds =>
      user.Tells n (.toUser user.destination n :: ds) := by
  have reports (ds : List Dispatch) (w : World) (h : user.Tells n (.toUser user.destination n :: ds)) :
      Sends (do
        report (dispatched user.id goal (user.acceptedBuddies.map (·.destination)).length)
        return n) w fun _ ds' => user.Tells n (.toUser user.destination n :: (ds ++ ds')) :=
    .after_silent (silent_inquiring.report _) (any _ w) fun _ _ _ _ => .pure (by rwa [List.append_nil])
  refine WP.ite (fun some => ?_) fun none => ?_
  · refine Sends.after_silent silent_inquiring.freshId
      (show WP freshId w (fun id' _ => id' = ⟨w.nextId⟩) fun _ _ => True from rfl)
      fun id' w₁ _ hid' => ?_
    refine (sends_dispatch _ _ w₁).bind fun _ ds w₂ _ only => ?_
    subst only hid'
    obtain ⟨b, hb⟩ := List.exists_mem_of_ne_nil user.acceptedBuddies (by simpa using some)
    refine reports _ w₂ (.buddies ⟨b, User.mem_acceptedBuddies.mp hb⟩ fun same => ?_)
    exact absurd (congrArg Id.value same) (Nat.ne_of_gt drawn)
  · have nobody : user.acceptedBuddies = [] := by simpa using none
    refine reports [] w (.alone fun b hb accepted => ?_)
    exact absurd (User.mem_acceptedBuddies.mpr ⟨hb, accepted⟩) (nobody ▸ List.not_mem_nil)

theorem notify_tells (user : User) (g : Goal) (x : Activity) (url : Option String) (w : World) :
    Sends (notify user g x url) w fun _ ds =>
      ∃ id, user.Tells ⟨id, user.id, g.id, g.category, x, url, w.now⟩ ds := by
  rw [notify_eq]
  refine WP.bind (show WP freshId w (fun id w₁ => id = ⟨w.nextId⟩ ∧ w₁ = { w with nextId := w.nextId + 1 })
    fun _ _ => True from ⟨rfl, rfl⟩) (fun id w₁ ⟨hid, same⟩ => ?_) fun _ _ h => h
  refine WP.bind (show WP get w₁ (fun got w₂ => got = w₁ ∧ w₂ = w₁) fun _ _ => True from ⟨rfl, rfl⟩)
    (fun got w₂ ⟨hgot, same'⟩ => ?_) fun _ _ h => h
  subst hid same same' hgot
  refine ((sends_dispatch _ _ _).within (still_dispatch ..)).bind
    (fun _ w₃ ⟨⟨now, ds, sent, only⟩, still⟩ => ?_) fun _ _ _ => trivial
  have drawn : w.nextId < w₃.nextId := still.nextId
  refine WP.mono (tellBuddies_tells drawn g.id) (fun _ w₄ ⟨now', ds', sent', tells⟩ => ?_) fun _ _ h => h
  subst only
  refine ⟨now'.trans now, _ :: ds', ?_, _, tells⟩
  rw [sent', sent, List.append_assoc, List.singleton_append]

end Work

/-! ## Analyses -/

theorem UsageEvent.Splits.url {zone : Zone} {e : UsageEvent} {parts : List UsageEvent}
    (h : e.Splits zone parts) : ∀ part ∈ parts, part.url = e.url := by
  cases h <;> simp

namespace Analyzer

variable (a : Analyzer) (user : User)

/-- The messages for the outcomes of an analysis. -/
def Told (url : Option String) (now : Instant) : List GoalOutcome → List Dispatch → Prop :=
  InTurn fun o ds => ∃ g : Goal, g.Announces a.settings.policy user url now o ds

variable {a user} {url : Option String} {w : World}

theorem processOne_announces {part : UsageEvent} {g : Goal} (own : g ∈ user.goals) (hurl : part.url = url) :
    Work.Sends (a.processOne user part g) w fun o ds =>
      ∃ g : Goal, g.Announces a.settings.policy user url w.now o ds := by
  unfold processOne
  refine Work.Sends.after_silent (Work.silent_merging.merge ..) (Work.any _ w) fun r w₁ now _ => ?_
  have conflict : a.settings.policy.isConflict g r.outcome = true ↔ _ := ConflictPolicy.isConflict_iff
  cases marked : a.settings.policy.isConflict g r.outcome with
  | true =>
    rw [marked] at conflict
    refine (Work.notify_tells user g r.outcome.activity part.url w₁).bind fun _ ds w₂ _ tells => .pure ?_
    rw [List.append_nil]
    rw [hurl, now] at tells
    exact ⟨g, own, rfl, conflict, nofun, fun _ => tells⟩
  | false =>
    rw [marked] at conflict
    exact .pure ⟨g, own, rfl, conflict, fun _ => rfl, nofun⟩

theorem process_told {goals : List Goal} (own : ∀ g ∈ goals, g ∈ user.goals) (e : UsageEvent) :
    Work.Sends (a.process user goals e) w (a.Told user e.url w.now) := by
  unfold process processBy
  refine Work.Sends.after_silent (Work.silent_inquiring.split ..) (Work.split_ok user.zone e w) fun parts w₁ now splits => ?_
  have told : Work.Sends (parts.mapM fun part => goals.mapM fun g => a.processOne user part g) w₁
      (InTurn (a.Told user e.url w.now)) := by
    refine .mapM fun part hpart w₂ now₂ => .mapM fun g hg w₃ now₃ => ?_
    rw [← now, ← now₂, ← now₃]
    exact processOne_announces (own g hg) (splits.url part hpart)
  refine told.bind fun outcomes ds w₂ _ told => .pure ?_
  rw [List.append_nil]
  exact told.flatten

/-- What is sent for a visit of the network. -/
theorem network_told (visit : NetworkVisit) : Work.Sends (a.network user visit) w fun r =>
    a.Told user (some (truncateUrl visit.url a.settings.maxUrlLength)) w.now r.outcomes := by
  have nothing : a.Told user (some (truncateUrl visit.url a.settings.maxUrlLength)) w.now [] [] :=
    ⟨[], rfl, .nil⟩
  unfold network networkBy
  refine Work.WP.ite (fun _ => Work.Sends.pure nothing) fun _ => ?_
  refine Work.Sends.after_silent .get (Work.any _ w) fun got w₁ now _ => ?_
  refine Work.Sends.after_silent (Work.silent_inquiring.matchingGoals ..) (Work.matchingGoals_ok ..)
    fun goals w₂ now₂ ⟨own, _⟩ => ?_
  refine Work.WP.ite (fun _ => Work.Sends.pure nothing) fun _ => ?_
  refine (process_told own _).bind fun outcomes ds w₃ _ told => ?_
  refine Work.Sends.after_silent (Work.silent_inquiring.report _) (Work.any _ w₃) fun _ w₄ _ _ => .pure ?_
  rw [List.append_nil]
  rw [now₂, now] at told
  exact told

theorem use_told (device : Option Id) (u : AppUse) :
    Work.Sends (a.use user device u) w (a.Told user none w.now) := by
  unfold use useBy
  refine Work.Sends.after_silent (Work.silent_inquiring.matchingGoals ..) (Work.matchingGoals_ok ..)
    fun goals w₁ now ⟨own, _⟩ => ?_
  rw [← now]
  exact Work.WP.ite (fun _ => Work.Sends.pure ⟨[], rfl, .nil⟩) fun _ => process_told own _

/-- What is sent for a device's report. -/
theorem app_told (report : AppReport) :
    Work.Sends (a.app user report) w fun r => a.Told user none w.now r.outcomes := by
  unfold app appBy
  cases report.uses.find? fun u => u.ends < u.starts with
  | some u => exact trivial
  | none =>
    refine Work.Sends.after_silent .get (Work.any _ w) fun got w₁ now _ => ?_
    refine Work.Sends.after_silent (Work.silent_inquiring.forM Work.silent_inquiring.report) (Work.any _ w₁)
      fun _ w₂ now₂ _ => ?_
    refine Work.Sends.after_silent (Work.silent_inquiring.mapM (Work.silent_inquiring.correctUse _)) (Work.any _ w₂)
      fun uses w₃ now₃ _ => ?_
    have told : Work.Sends ((inOrder uses).mapM (a.use user report.device)) w₃
        (InTurn (a.Told user none w.now)) := by
      refine .mapM fun u _ w₄ now₄ => ?_
      rw [← now, ← now₂, ← now₃, ← now₄]
      exact use_told report.device u
    refine told.bind fun outcomes ds w₄ _ told => ?_
    refine Work.Sends.after_silent (Work.silent_inquiring.report _) (Work.any _ w₄) fun _ w₅ _ _ => .pure ?_
    rw [List.append_nil]
    exact told.flatten

end Analyzer

namespace Sample

/-- A device reports that mail was read. -/
def mailUsed : AppReport :=
  ⟨(event 20).starts, some ⟨9⟩, [⟨"mail", (event 10).starts, (event 10).ends⟩]⟩

end Sample
end UsageDiary
