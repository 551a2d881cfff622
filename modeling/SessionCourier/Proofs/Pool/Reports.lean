import SessionCourier.Proofs.Outbox.Reports
import SessionCourier.Proofs.Pool.Accounts
import SessionCourier.Proofs.Pool.Escalation

set_option autoImplicit false

namespace SessionCourier.Pool

open Metrics (Happening)

variable {clock k : Nat} {p p' : Pool} {a : Action} {out : List Output} {ts us : List Turn}
  {x : Place} {β : Type} {pick : Happening → Option β}

def happened (ts : List Turn) : List Happening := said Output.happening? ts

/-- Every notice that anybody was told to pass on. -/
def notified (ts : List Turn) : List Notice :=
  ts.filterMap fun t => match t.action with
    | .notify n => some n
    | _ => none

def failed (ts : List Turn) : List (Place × Notice) :=
  (deeds ts).filterMap fun x => (x.2.before.failed? x.2.action).map (x.1, ·)

def rejected (ts : List Turn) : List (Place × Notice) :=
  (deeds ts).filterMap fun x => (x.2.before.rejected? x.2.action).map (x.1, ·)

def heldIn (f : Outbox → List β) (s : Shard) : List (Nat × β) :=
  s.outboxes.zipIdx.flatMap fun x => (f x.1).map (x.2, ·)

/-- What all outboxes hold of something, live or not. -/
def held (f : Outbox → List β) (p : Pool) : List (Place × β) :=
  (p.shards.zipIdx.flatMap fun x => (heldIn f x.1).map (x.2, ·)).map fun x => ((x.1, x.2.1), x.2.2)

/-- Sent and not answered yet. -/
def inFlight (p : Pool) : List (Place × Notice) := held (·.inFlight?.toList) p

/-- Attempts that have failed and whose links are being given up. -/
def dropping (p : Pool) : List (Place × Notice) := held (·.dropping?.toList) p

theorem held_at (f : Outbox → List β) (p : Pool) (x : Place) :
    atPlace x (held f p) = (p.outboxAt? x).elim [] f := by
  obtain ⟨k, id⟩ := x
  rw [held, atPlace_nested, atPlace_zipIdx, outboxAt?, outbox?]
  cases p.shards[k]? with
  | none => rfl
  | some s => exact atPlace_zipIdx f s.outboxes id

theorem count_atPlace {κ : Type} [DecidableEq κ] [DecidableEq β] (l : List (κ × β)) (at_ : κ) (b : β) :
    (atPlace at_ l).count b = l.count (at_, b) := by
  induction l with
  | nil => rfl
  | cons x rest ih =>
    rw [← List.singleton_append, atPlace_append, List.count_append, List.count_append, ih,
      atPlace_single]
    obtain ⟨here, c⟩ := x
    by_cases same : here = at_
    · subst same
      simp [List.count_singleton]
    · simp [same]

theorem perm_of_atPlace {κ : Type} [DecidableEq κ] {l k : List (κ × β)}
    (agree : ∀ x, (atPlace x l).Perm (atPlace x k)) : l.Perm k := by
  classical
  refine List.perm_iff_count.mpr fun ⟨x, b⟩ => ?_
  have := (agree x).count_eq b
  rwa [count_atPlace, count_atPlace] at this

def announced : Action → List Happening
  | .notify n => happenings n
  | _ => []

theorem timeout_of_count {policy : Policy} {s s' : Shard} {b : Shard.Action}
    {said : List Shard.Output} {happening : Happening}
    (taken : Shard.step policy clock s b = some (s', said)) (mem : .count happening ∈ said) :
    happening = .timedOut := by
  cases Shard.step_change taken with
  | works _ _ _ settles =>
    cases settles with
    | waits | goesOn => simp at mem
    | escalates => simpa using mem
  | @ends h left result => cases result <;> simp at mem
  | adds | offers | misses | deletes | creates | starts | wakes | polls | stops | surveys | sweeps |
    parks | skips | halts => simp at mem

theorem reported_of_shard {said : List Shard.Output} (blind : pick .timedOut = none)
    (own : ∀ happening, .count happening ∈ said → happening = .timedOut) :
    (said.filterMap Shard.Output.happening?).filterMap pick =
      (said.filterMap Shard.Output.outbox?).filterMap (·.2.reported? pick) := by
  rw [List.filterMap_filterMap, List.filterMap_filterMap]
  refine List.filterMap_congr fun x mem => ?_
  cases x with
  | outbox id y => rfl
  | count happening =>
    rw [own happening mem]
    exact blind
  | log | enter | endSession => rfl

theorem announced_of_step (h : step clock p a = some (p', out)) :
    out.filterMap Output.happening? =
      announced a ++ (out.filterMap Output.shard?).filterMap (·.2.happening?) := by
  have told : ∀ l : List Output, (∀ happening, .count happening ∉ l) →
      l.filterMap Output.happening? = (l.filterMap Output.shard?).filterMap (·.2.happening?) := by
    intro l uncounted
    rw [List.filterMap_filterMap]
    refine List.filterMap_congr fun x mem => ?_
    cases x with
    | shard k y => rfl
    | count happening => exact absurd mem (uncounted happening)
    | log | enter => rfl
  cases a with
  | notify n =>
    have announces_happenings : (announces n).filterMap Output.happening? = happenings n := by
      rw [announces, List.filterMap_cons_none rfl, List.filterMap_map]
      exact List.filterMap_some
    rcases notify_cases h with ⟨-, -, e, rfl⟩ | ⟨addr, out₁, e, -, within, rfl⟩
    · rw [List.filterMap_append, List.filterMap_append, announces_happenings, announces_silent]
      rfl
    · rw [List.filterMap_append, List.filterMap_append, announces_happenings, announces_silent,
        List.filterMap_cons_none rfl, List.filterMap_cons_none rfl,
        told out₁ fun happening => uncounted_within within happening]
      rfl
  | delete | register | unregister | offer | shutDown | join | move =>
    refine told out fun happening mem => ?_
    obtain ⟨n, eq, -⟩ := counts_of_step h mem
    cases eq

theorem reported_of_step (blind : pick .timedOut = none) (h : step clock p a = some (p', out)) :
    (out.filterMap Output.happening?).filterMap pick =
      (announced a).filterMap pick ++
        (out.filterMap Output.outbox?).filterMap (·.2.reported? pick) := by
  rw [announced_of_step h, List.filterMap_append]
  refine congrArg _ ?_
  cases step_change h with
  | rests _ _ _ silent => rw [outputs_of_places, silent]; rfl
  | works _ _ _ taken tells =>
    have same := reported_of_shard blind fun _ mem => timeout_of_count taken mem
    rw [outputs_of_works tells rfl, tells, List.filterMap_map, List.filterMap_map]
    exact same

theorem happened_of_trace {p₀ : Pool} (blind : pick .timedOut = none) (run : Trace step p₀ ts p) :
    ((happened ts).filterMap pick).Perm
      (((notified ts).flatMap happenings).filterMap pick ++
        (heard (Outbox.Output.reported? pick) ts).map (·.2)) := by
  induction run with
  | refl => exact .refl _
  | @tail ts v w clock a out before last ih =>
    have told : notified (ts ++ [⟨clock, v, a, out⟩]) = notified ts ++ notified [⟨clock, v, a, out⟩] :=
      List.filterMap_append
    have announced_eq : (notified [⟨clock, v, a, out⟩]).flatMap happenings = announced a := by
      cases a <;> simp [notified, announced]
    have heard_eq : (heard (Outbox.Output.reported? pick) [⟨clock, v, a, out⟩]).map (·.2) =
        (out.filterMap Output.outbox?).filterMap (·.2.reported? pick) := by
      rw [heard, spoken, said_cons, said_nil, List.append_nil, List.map_filterMap]
      refine List.filterMap_congr fun x _ => ?_
      cases x.2.reported? pick <;> rfl
    rw [happened, said_append, List.filterMap_append, said_cons, said_nil, List.append_nil,
      reported_of_step blind last, told, List.flatMap_append, List.filterMap_append, announced_eq,
      heard_append, List.map_append, heard_eq]
    refine (ih.append_right _).trans ?_
    simp only [List.append_assoc]
    refine List.Perm.append_left _ ?_
    rw [← List.append_assoc, ← List.append_assoc]
    exact List.perm_append_comm.append_right _

theorem atPlace_mapSnd {κ γ : Type} [DecidableEq κ] {at_ : κ} (g : β → γ) (l : List (κ × β)) :
    atPlace at_ (l.map fun x => (x.1, g x.2)) = (atPlace at_ l).map g := by
  rw [← List.filterMap_eq_map, ← List.filterMap_eq_map]
  exact atPlace_filterMap (fun b => some (g b)) l

theorem Traced.perm (traced : Traced ts p) {l l' : List (Place × β)}
    {f g : List Outbox.Turn → Option Outbox → List β}
    (told : ∀ x, atPlace x l = f (atPlace x (deeds ts)) (p.outboxAt? x))
    (told' : ∀ x, atPlace x l' = g (atPlace x (deeds ts)) (p.outboxAt? x))
    (nothing : (f [] none).Perm (g [] none))
    (same : ∀ h addr us o, Trace (Outbox.step p.policy) (.create h addr) us o →
      (f us (some o)).Perm (g us (some o))) : l.Perm l' := by
  refine perm_of_atPlace fun x => ?_
  rw [told, told']
  cases has : p.outboxAt? x with
  | none =>
    rw [traced.absent x has]
    exact nothing
  | some o =>
    obtain ⟨addr, run⟩ := traced.runs x o has
    exact same _ _ _ _ run

theorem failed_at (ts : List Turn) (x : Place) :
    atPlace x (failed ts) = Outbox.failed (atPlace x (deeds ts)) :=
  atPlace_filterMap (fun u => u.before.failed? u.action) (deeds ts)

theorem rejected_at (ts : List Turn) (x : Place) :
    atPlace x (rejected ts) = Outbox.rejected (atPlace x (deeds ts)) :=
  atPlace_filterMap (fun u => u.before.rejected? u.action) (deeds ts)

theorem sent_settled (traced : Traced ts p) :
    (invoked ts).Perm (delivered ts ++ rejected ts ++ inFlight p) := by
  refine traced.perm (f := fun us _ => Outbox.invoked us)
    (g := fun us o => Outbox.delivered us ++ Outbox.rejected us ++ o.elim [] (·.inFlight?.toList))
    (traced.heard _) (fun x => ?_) (.refl _) fun h addr us o run => ?_
  · rw [atPlace_append, atPlace_append, delivered_at, rejected_at, inFlight, held_at]
  · exact (Outbox.reported_of_trace run).2.2

theorem announced_reported {p₀ : Pool} (traced : Traced ts p) (run : Trace step p₀ ts p)
    (blind : pick .timedOut = none) (undelivered : ∀ m latency, pick (.delivered m latency) = none)
    (unfailed : ∀ m, pick (.failed m) = none) :
    ((happened ts).filterMap pick).Perm (((notified ts).flatMap happenings).filterMap pick) := by
  have unheard : (heard (Outbox.Output.reported? pick) ts).Perm [] := by
    refine traced.perm (f := fun us _ => Outbox.reported pick us) (g := fun _ _ => [])
      (traced.heard _) (fun _ => rfl) (.refl _) fun h addr us o run => ?_
    rw [Outbox.silent_of_trace undelivered unfailed run]
  have all := happened_of_trace blind run
  rwa [unheard.eq_nil, List.map_nil, List.append_nil] at all

theorem heard_reported {p₀ : Pool} (run : Trace step p₀ ts p) (blind : pick .timedOut = none)
    (unannounced : ∀ n, (happenings n).filterMap pick = []) :
    ((happened ts).filterMap pick).Perm ((heard (Outbox.Output.reported? pick) ts).map (·.2)) := by
  have nothing : ((notified ts).flatMap happenings).filterMap pick = [] := by
    rw [List.filterMap_flatMap]
    exact List.flatMap_eq_nil_iff.2 fun n _ => unannounced n
  have all := happened_of_trace blind run
  rwa [nothing, List.nil_append] at all

theorem delivered_reported {p₀ : Pool} (traced : Traced ts p) (run : Trace step p₀ ts p) :
    ((happened ts).filterMap (·.delivered?)).Perm ((delivered ts).map (·.2.method)) := by
  have heard_eq : (heard (Outbox.Output.reported? (·.delivered?)) ts).Perm
      ((delivered ts).map fun x => (x.1, x.2.method)) := by
    refine traced.perm (f := fun us _ => Outbox.reported (·.delivered?) us)
      (g := fun us _ => (Outbox.delivered us).map (·.method)) (traced.heard _) (fun x => ?_) (.refl _)
      fun h addr us o run => .of_eq (Outbox.reported_of_trace run).1
    rw [atPlace_mapSnd, delivered_at]
  have unannounced : ∀ n, (happenings n).filterMap (·.delivered?) = [] := by
    intro n
    cases n <;> simp [happenings, Happening.delivered?]
  have all := (heard_reported run rfl unannounced).trans (heard_eq.map (·.2))
  rwa [List.map_map] at all

theorem failed_reported {p₀ : Pool} (traced : Traced ts p) (run : Trace step p₀ ts p) :
    ((happened ts).filterMap (·.failed?) ++ (dropping p).map (·.2.method)).Perm
      ((failed ts).map (·.2.method)) := by
  have heard_eq : (heard (Outbox.Output.reported? (·.failed?)) ts ++
      (dropping p).map fun x => (x.1, x.2.method)).Perm
        ((failed ts).map fun x => (x.1, x.2.method)) := by
    refine traced.perm
      (f := fun us o => Outbox.reported (·.failed?) us ++
        (o.elim [] (·.dropping?.toList)).map Notice.method)
      (g := fun us _ => (Outbox.failed us).map Notice.method) (fun x => ?_) (fun x => ?_) (.refl _)
      fun h addr us o run => .of_eq (Outbox.reported_of_trace run).2.1
    · rw [atPlace_append, traced.heard, atPlace_mapSnd, dropping, held_at]
      rfl
    · rw [atPlace_mapSnd, failed_at]
  have unannounced : ∀ n, (happenings n).filterMap (·.failed?) = [] := by
    intro n
    cases n <;> simp [happenings, Happening.failed?]
  have all := heard_eq.map (·.2)
  rw [List.map_append, List.map_map, List.map_map] at all
  exact ((heard_reported run rfl unannounced).append_right _).trans all

/-- The resources that a notice grants. -/
def grantedBy : Notice → List Resource
  | .grant _ gs => gs.map (·.resource)
  | _ => []

def revokedBy : Notice → List Resource
  | .revoke _ gs _ => gs.map (·.resource)
  | _ => []

theorem granted_of_happenings (n : Notice) :
    (happenings n).filterMap (·.granted?) = grantedBy n := by
  cases n with
  | grant h gs =>
    rw [happenings, List.filterMap_map]
    exact congrFun List.filterMap_eq_map' gs
  | revoke | deadNode => simp [happenings, Happening.granted?, grantedBy]

theorem revoked_of_happenings (n : Notice) :
    (happenings n).filterMap (·.revoked?) = revokedBy n := by
  cases n with
  | revoke h gs force =>
    rw [happenings, List.filterMap_map]
    exact congrFun List.filterMap_eq_map' gs
  | grant | deadNode => simp [happenings, Happening.revoked?, revokedBy]

/-- The reports of a started pool, after any steps of callers and workers and whatever drivers and the
manager answer. Deliveries are reported for each method as often as drivers took a notice of it, and
failures as often as an attempt failed, but for those whose links are just being given up. What was
sent was taken by the driver, or not taken, or is in flight. Grants and revokes are reported for each
resource as often as anybody was told to pass them on. A store that is told of all this has counted it
so, modulo `2 ^ 64`. -/
theorem reports_account_for_events {settings : Settings} {registry : Registry} {runtime : Bool}
    {p₀ : Pool} {out₀ : List Output} (started : start settings registry runtime = .ok (p₀, out₀))
    (run : Trace step p₀ ts p) :
    (∀ m, ((happened ts).filterMap (·.delivered?)).count m =
      ((delivered ts).map (·.2.method)).count m) ∧
    (∀ m, ((happened ts).filterMap (·.failed?)).count m + ((dropping p).map (·.2.method)).count m =
      ((failed ts).map (·.2.method)).count m) ∧
    ((∀ x o, p.outboxAt? x = some o → o.dropping? = none) → dropping p = []) ∧
    (invoked ts).Perm (delivered ts ++ rejected ts ++ inFlight p) ∧
    (∀ r, ((happened ts).filterMap (·.granted?)).count r = ((notified ts).flatMap grantedBy).count r) ∧
    (∀ r, ((happened ts).filterMap (·.revoked?)).count r = ((notified ts).flatMap revokedBy).count r) ∧
    (∀ m, (Metrics.recorded (happened ts)).counter (Metrics.deliveries m) =
        .ofNat (((happened ts).filterMap (·.delivered?)).count m) ∧
      (Metrics.recorded (happened ts)).counter (Metrics.failures m) =
        .ofNat (((happened ts).filterMap (·.failed?)).count m)) ∧
    ∀ r, (Metrics.recorded (happened ts)).counter (Metrics.grants r) =
        .ofNat (((happened ts).filterMap (·.granted?)).count r) ∧
      (Metrics.recorded (happened ts)).counter (Metrics.revokes r) =
        .ofNat (((happened ts).filterMap (·.revoked?)).count r) := by
  have traced := traced_of_trace (start_fresh started) run
  refine ⟨fun m => (delivered_reported traced run).count_eq m, fun m => ?_, fun quiet => ?_,
    sent_settled traced, fun r => ?_, fun r => ?_,
    fun m => ⟨Metrics.counter_of_picks (Metrics.deliveries_eq_counted m) _,
      Metrics.counter_of_picks (Metrics.failures_eq_counted m) _⟩,
    fun r => ⟨Metrics.counter_of_picks (Metrics.grants_eq_counted r) _,
      Metrics.counter_of_picks (Metrics.revokes_eq_counted r) _⟩⟩
  · rw [← (failed_reported traced run).count_eq m, List.count_append]
  · refine (perm_of_atPlace (k := []) fun x => ?_).eq_nil
    rw [dropping, held_at]
    cases has : p.outboxAt? x with
    | none => exact .refl _
    | some o => rw [Option.elim_some, quiet x o has]; exact .refl _
  · rw [(announced_reported traced run rfl (fun _ _ => rfl) fun _ => rfl).count_eq r,
      List.filterMap_flatMap]
    simp only [granted_of_happenings]
  · rw [(announced_reported traced run rfl (fun _ _ => rfl) fun _ => rfl).count_eq r,
      List.filterMap_flatMap]
    simp only [revoked_of_happenings]

/-- A link is lost, the session is deleted while the link is given up, and a grant comes too late; one
attempt has failed and is not reported yet at the end. -/
def interrupted : List (Nat × Action) :=
  [(0, .move 0 .start), (1, .notify (.deadNode Outbox.sampleSession "a")), (2, .move 0 .wake),
    (3, .move 0 (.survey [0])), (4, .move 0 .proceed), (5, .move 0 (.answer (.connected (.ok ())))),
    (6, .move 0 (.answer (.invoked (.error .closed)))), (7, .delete Outbox.sampleSession),
    (8, .shutDown), (9, .notify (.grant otherSession [⟨1, .cpu, "n1", ⟨"node", 9000⟩, none⟩]))]

theorem reports_account_for_events_interrupted : ∃ ts p, Trace step samplePool ts p ∧
    (failed ts).length = 1 ∧ (dropping p).length = 1 ∧
    ((happened ts).filterMap (·.failed?)).count .processDeadNode = 0 ∧
    (Metrics.recorded (happened ts)).counter (Metrics.grants .cpu) = 1 := by
  have seen : ((play step samplePool interrupted).map fun r =>
      (failed r.1, dropping r.2, ((happened r.1).filterMap (·.granted?)).count .cpu)) =
        some ([((0, 0), .deadNode Outbox.sampleSession "a")],
          [((0, 0), .deadNode Outbox.sampleSession "a")], 1) := by
    decide +kernel
  obtain ⟨⟨ts, p⟩, played, eq⟩ := Option.map_eq_some_iff.1 seen
  obtain ⟨failures, rest⟩ := Prod.mk.inj eq
  obtain ⟨drops, grants⟩ := Prod.mk.inj rest
  have run := trace_of_play played
  obtain ⟨-, reported, -, -, -, -, -, recorded⟩ := reports_account_for_events samplePool_started run
  have one := reported .processDeadNode
  rw [show failed ts = _ from failures, show dropping p = _ from drops] at one
  refine ⟨ts, p, run, congrArg List.length failures, congrArg List.length drops, ?_, ?_⟩
  · exact Nat.add_right_cancel (m := 1) (one.trans (Nat.zero_add 1).symm)
  · rw [(recorded .cpu).1, show List.count _ _ = 1 from grants]
    rfl

end SessionCourier.Pool
