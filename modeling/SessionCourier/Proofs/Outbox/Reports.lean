import Mathlib.Data.List.Perm.Basic
import SessionCourier.Proofs.Metrics.Recorded
import SessionCourier.Proofs.Outbox.Detached

set_option autoImplicit false

namespace SessionCourier.Outbox

variable {p : Policy} {clock task now : Nat} {o o' : Outbox} {a : Action} {out : List Output}
  {holder : Option (Nat × Stage)} {ts : List Turn} {head : Notice} {f : Failure} {job : Job}

theorem filterMap_one {α β : Type} (g : α → Option β) (x : α) : [x].filterMap g = (g x).toList := by
  cases eq : g x <;> simp [eq]

def Stage.dropping? : Stage → Option Notice
  | .dropping _ _ head _ => some head
  | _ => none

def unreached? (o : Outbox) : Action → Option Notice
  | .answer (.connected (.error _)) => o.connecting?
  | _ => none

def rejected? (o : Outbox) : Action → Option Notice
  | .answer (.invoked (.error _)) => o.inFlight?
  | _ => none

def failed? (o : Outbox) (a : Action) : Option Notice := o.unreached? a <|> o.rejected? a

/-- The head of an attempt that has failed and is giving up its link. -/
def dropping? (o : Outbox) : Option Notice := o.holder.bind (·.2.dropping?)

def rejected (ts : List Turn) : List Notice := ts.filterMap fun t => t.before.rejected? t.action

def failed (ts : List Turn) : List Notice := ts.filterMap fun t => t.before.failed? t.action

def Output.reported? {β : Type} (pick : Metrics.Happening → Option β) (e : Output) : Option β :=
  e.happening?.bind pick

def reported {β : Type} (pick : Metrics.Happening → Option β) (ts : List Turn) : List β :=
  said (Output.reported? pick) ts

/-- How a step settles attempts, what it reports of them and what it sends. -/
structure Reports (o : Outbox) (a : Action) (o' : Outbox) (out : List Output) : Prop where
  delivered : out.filterMap (Output.reported? (·.delivered?)) =
    (o.delivers? a).toList.map (·.method)
  failed : out.filterMap (Output.reported? (·.failed?)) ++ o'.dropping?.toList.map (·.method) =
    (o.dropping?.toList ++ (o.failed? a).toList).map (·.method)
  sent : o.inFlight?.toList ++ out.filterMap Output.invoked? =
    (o.delivers? a).toList ++ (o.rejected? a).toList ++ o'.inFlight?.toList

theorem silent_of_unreported {β : Type} (pick : Metrics.Happening → Option β)
    (unreported : out.filterMap Output.happening? = []) :
    out.filterMap (Output.reported? pick) = [] := by
  have := congrArg (List.filterMap pick) unreported
  rwa [List.filterMap_filterMap] at this

def Action.isAnswer : Action → Bool
  | .answer _ => true
  | _ => false

theorem Reports.of_unanswered (unanswered : a.isAnswer = false)
    (unreported : out.filterMap Output.happening? = []) (drops : o'.dropping? = o.dropping?)
    (sent : o.inFlight?.toList ++ out.filterMap Output.invoked? = o'.inFlight?.toList) :
    Reports o a o' out := by
  have settles : o.delivers? a = none ∧ o.failed? a = none ∧ o.rejected? a = none := by
    cases a with
    | answer => cases unanswered
    | enqueue | detach | call | resume => exact ⟨rfl, rfl, rfl⟩
  obtain ⟨undelivered, unfailed, unrejected⟩ := settles
  constructor
  · rw [silent_of_unreported _ unreported, undelivered]; rfl
  · rw [silent_of_unreported _ unreported, drops, unfailed, Option.toList_none, List.append_nil]; rfl
  · rw [sent, undelivered, unrejected]; rfl

theorem Reports.of_kept (unanswered : a.isAnswer = false) (held : o'.holder = o.holder)
    (unreported : out.filterMap Output.happening? = [])
    (unsent : out.filterMap Output.invoked? = []) : Reports o a o' out := by
  refine .of_unanswered unanswered unreported (by rw [dropping?, dropping?, held]) ?_
  rw [unsent, List.append_nil, inFlight?, inFlight?, held]

theorem Goes.unreported (h : o.Goes clock task now holder out) :
    out.filterMap Output.happening? = [] ∧ holder.bind (·.2.dropping?) = none := by
  cases h <;> exact ⟨rfl, rfl⟩

theorem Enters.unreported (h : o.Enters clock task job o' out) (free : o.holder = none) :
    out.filterMap Output.happening? = [] ∧ o'.dropping? = none := by
  cases h with
  | flushes _ goes => exact goes.unreported
  | shuts => exact ⟨rfl, by rw [dropping?, free]; rfl⟩
  | waits | releases => exact ⟨rfl, rfl⟩

/-- The lock was free, and a task does its first step with it. -/
theorem Reports.of_enters {o₁ : Outbox} (unanswered : a.isAnswer = false) (free : o.holder = none)
    (enters : o₁.Enters clock task job o' out) (same : o₁.holder = o.holder) : Reports o a o' out := by
  obtain ⟨unreported, undropped⟩ := enters.unreported (same.trans free)
  refine .of_unanswered unanswered unreported (by rw [undropped, dropping?, free]; rfl) ?_
  rw [inFlight?, free, enters.invoked (same.trans free)]
  rfl

theorem Fails.reports (h : o.Fails p clock task now head f o' out) :
    out.filterMap (Output.reported? (·.delivered?)) = [] ∧
      out.filterMap (Output.reported? (·.failed?)) = [head.method] ∧
      out.filterMap Output.invoked? = [] ∧ o'.holder = none := by
  cases h <;> exact ⟨rfl, rfl, rfl, rfl⟩

theorem inFlight_of_invoking {link since : Nat}
    (held : o.holder = some (task, .invoking now link head since)) : o.inFlight? = some head := by
  rw [inFlight?, held]
  rfl

theorem failed_of_invoked (o : Outbox) (f : Failure) :
    o.failed? (.answer (.invoked (.error f))) = o.inFlight? := rfl

theorem Change.reports (h : Change p clock o a o' out) : Reports o a o' out := by
  cases h with
  | accepts | refuses | detaches | skips | repeats => exact .of_kept rfl rfl rfl rfl
  | queues asked => exact .of_kept rfl asked.same_holder rfl rfl
  | calls asked free _ enters => exact .of_enters rfl free enters asked.same_holder
  | resumes free _ enters => exact .of_enters rfl free enters rfl
  | connected held =>
    constructor
    · rfl
    · rw [dropping?, dropping?, held]; rfl
    · rw [inFlight?, inFlight?, held]; rfl
  | unreached held fails =>
    obtain ⟨undelivered, failed, unsent, free⟩ := fails.reports
    constructor
    · rw [undelivered]; rfl
    · rw [failed, dropping?, dropping?, free, held, failed?, unreached?, connecting?, held]; rfl
    · rw [unsent, inFlight?, inFlight?, free, held]; rfl
  | delivered held goes =>
    obtain ⟨unreported, undropped⟩ := goes.unreported
    have flies := inFlight_of_invoking held
    constructor
    · rw [List.filterMap_append, silent_of_unreported _ unreported, delivers?, flies]
      split <;> rfl
    · rw [List.filterMap_append, silent_of_unreported _ unreported, dropping?, undropped, dropping?,
        held]
      split <;> rfl
    · rw [filterMap_after (fun _ => rfl) (fun _ => rfl), goes.invoked, delivers?, flies]
      rfl
  | rejected held =>
    have flies := inFlight_of_invoking held
    constructor
    · rfl
    · rw [dropping?, dropping?, held, failed_of_invoked, flies]; rfl
    · rw [rejected?, flies]; rfl
  | dropped held fails =>
    obtain ⟨undelivered, failed, unsent, free⟩ := fails.reports
    constructor
    · rw [undelivered]; rfl
    · rw [failed, dropping?, dropping?, free, held]; rfl
    · rw [unsent, inFlight?, inFlight?, free, held]; rfl
  | closes held =>
    constructor
    · rfl
    · rw [dropping?, dropping?, held]; rfl
    · rw [inFlight?, inFlight?, held]; rfl

theorem reported_of_trace {h : Handle} {addr : Address}
    (run : Trace (step p) (create h addr) ts o) :
    reported (·.delivered?) ts = (delivered ts).map (·.method) ∧
      reported (·.failed?) ts ++ o.dropping?.toList.map (·.method) = (failed ts).map (·.method) ∧
      (invoked ts).Perm (delivered ts ++ rejected ts ++ o.inFlight?.toList) := by
  induction run with
  | refl => exact ⟨rfl, rfl, .refl _⟩
  | @tail ts u v clock a out before last ih =>
    obtain ⟨deliveries, failures, sent⟩ := ih
    have reports := (step_change last).reports
    have settled {β : Type} (g : Turn → Option β) (t : Turn) :
        (ts ++ [t]).filterMap g = ts.filterMap g ++ (g t).toList := by
      rw [List.filterMap_append, filterMap_one]
    have said_now {β : Type} (f : Output → Option β) (t : Turn) :
        said f (ts ++ [t]) = said f ts ++ t.outputs.filterMap f := by
      rw [said_append, said_cons, said_nil, List.append_nil]
    refine ⟨?_, ?_, ?_⟩
    · rw [reported, said_now, delivered, settled, List.map_append, ← reports.delivered]
      exact congrArg (· ++ _) deliveries
    · rw [reported, said_now, failed, settled, List.append_assoc, reports.failed, List.map_append,
        ← List.append_assoc, List.map_append]
      exact congrArg (· ++ _) failures
    · rw [invoked, said_now, delivered, settled, rejected, settled]
      refine (sent.append_right _).trans ?_
      rw [List.append_assoc, reports.sent]
      refine List.perm_iff_count.mpr fun n => ?_
      simp only [List.count_append, delivered, rejected]
      omega

theorem Change.silent {β : Type} {pick : Metrics.Happening → Option β}
    (undelivered : ∀ m latency, pick (.delivered m latency) = none)
    (unfailed : ∀ m, pick (.failed m) = none) (h : Change p clock o a o' out) :
    out.filterMap (Output.reported? pick) = [] := by
  cases h with
  | calls asked free _ enters =>
    exact silent_of_unreported _ (enters.unreported (asked.same_holder.trans free)).1
  | resumes free _ enters => exact silent_of_unreported _ (enters.unreported free).1
  | unreached _ fails | dropped _ fails =>
    cases fails <;> simp [Output.reported?, Output.happening?, unfailed]
  | delivered _ goes =>
    rw [List.filterMap_append, silent_of_unreported _ goes.unreported.1]
    split <;> simp [Output.reported?, Output.happening?, undelivered]
  | accepts | refuses | detaches | skips | repeats | queues | connected | rejected | closes => rfl

theorem silent_of_trace {β : Type} {pick : Metrics.Happening → Option β} {o₀ : Outbox}
    (undelivered : ∀ m latency, pick (.delivered m latency) = none)
    (unfailed : ∀ m, pick (.failed m) = none) (run : Trace (step p) o₀ ts o) :
    reported pick ts = [] := by
  induction run with
  | refl => rfl
  | tail _ last ih =>
    rw [reported, said_append, said_cons, said_nil, List.append_nil]
    have ih : said (Output.reported? pick) _ = [] := ih
    rw [ih, (step_change last).silent undelivered unfailed]
    rfl

end SessionCourier.Outbox
