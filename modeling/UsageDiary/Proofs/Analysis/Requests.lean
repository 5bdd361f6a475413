import UsageDiary.Proofs.Analysis.Course
import UsageDiary.Proofs.Run

/-!
# Runs of analyses

A service is asked to analyze visits of the network and devices' reports,
and to empty users' slots, while the clock, the categories of labels and the
outages around it change (`Request`). What each request keeps, a run of them
keeps (`World.served_induction`).
-/

namespace UsageDiary

/-- What may happen to a service of analyses. -/
inductive Request where
  | network (user : User) (visit : NetworkVisit)
  | app (user : User) (report : AppReport)
  | invalidate (user : Id)
  /-- From now on the clock shows this, labels have these categories, and
  these outages meet the calls. -/
  | surroundings (now : Instant) (directory : List (String × List Id)) (outages : List Outage)

/-- What a request is answered with. -/
inductive Reply where
  | analyzed (analysis : Analysis)
  | emptied (slots : Nat)
  | changed
deriving DecidableEq

/-- What a service does for a request, with its answer. -/
def Request.run (a : Analyzer) : Request → Work Reply
  | network user visit => return .analyzed (← a.network user visit)
  | app user report => return .analyzed (← a.app user report)
  | invalidate user => return .emptied (← Work.invalidate user)
  | surroundings now directory outages => do
    modify fun w => { w with now := now, directory := directory, outages := outages }
    return .changed

namespace World

/-- The world after a request. -/
def serve (a : Analyzer) (w : World) (q : Request) : World := ((q.run a).exec w).2

/-- The world after requests. -/
def served (a : Analyzer) (w : World) (requests : List Request) : World := requests.foldl (serve a) w

/-- What requests are answered with, one after the other. -/
def replies (a : Analyzer) (w : World) : List Request → List (Except Stop Reply)
  | [] => []
  | q :: rest => ((q.run a).exec w).1 :: replies a (w.serve a q) rest

variable {a : Analyzer} {w : World}

theorem served_append (w : World) (qs qs' : List Request) :
    w.served a (qs ++ qs') = (w.served a qs).served a qs' :=
  List.foldl_append

/-- What holds of a world and is kept by each request holds after all of
them. -/
theorem served_induction (holds : World → Prop) {requests : List Request} (start : holds w)
    (step : ∀ q ∈ requests, ∀ w, holds w → holds (w.serve a q)) : holds (w.served a requests) :=
  requests.foldlRecOn (serve a) start fun w hw q hq => step q hq w hw

end World

/-- A request only passes on what an analysis ends in. -/
theorem Course.Follows.passes {c : Course} {α β : Type} {x : Work α} {w : World} {post : α → World → Prop}
    (h : c.Follows x w post) (f : α → β) : c.Follows (do return f (← x)) w fun _ _ => True :=
  h.bind fun _ _ leads _ => .pure leads.inv trivial

/-- A request for an analysis that follows a course ends on it. -/
theorem Course.Follows.leads {c : Course} {α : Type} {x : Work α} {w : World} {post : α → World → Prop}
    (h : c.Follows x w post) : c.inv (x.exec w).2 ∧ (c.step w (x.exec w).2 ∨
      ∃ stop, (x.exec w).1 = .error stop ∧ c.stops w stop (x.exec w).2) := by
  unfold Course.Follows Work.WP at h
  rcases exec : x.exec w with ⟨stop | b, w'⟩ <;> rw [exec] at h
  · exact ⟨h.inv, .inr ⟨stop, rfl, h.stops⟩⟩
  · exact ⟨h.1.inv, .inl h.1.step⟩

/-! ## Sample requests -/

namespace Sample

/-- A goal that allows no mail. -/
def limit : Goal := ⟨goal, ⟨5⟩, .noGo, .epoch⟩

/-- A user with a goal, who lives by universal time. -/
def owner : User := { user .utc with goals := [limit] }

/-- An analyzer with the settings that are the default. -/
def analyzer : Analyzer := ⟨{}, Duration.ofMillis 10000⟩

/-- The same user, with a buddy who accepted and one who did not. -/
def watched : User :=
  { owner with buddies := [⟨⟨6⟩, ⟨60⟩, .requested⟩, ⟨⟨7⟩, ⟨70⟩, .accepted⟩] }

/-- Mail is read at an address. -/
def mailRead (url : String) : NetworkVisit := ⟨["mail"], url, some (event 10).starts, none⟩

/-- Mail counts for the goal from now on, and these outages meet the calls. -/
def mailCounts (outages : List Outage) : Request := .surroundings (event 20).starts [("mail", [⟨5⟩])] outages

/-- Mail counts for the goal, and nothing was analyzed yet. -/
def counting : World := (World.fresh .epoch 0).serve analyzer (mailCounts [])

end Sample
end UsageDiary
