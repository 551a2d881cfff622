import SessionCourier.Proofs.CommandLine.Notices
import SessionCourier.Proofs.Pool.Offers
import SessionCourier.Proofs.Rehearsal.Trial
import SessionCourier.Rehearsal.Errand

set_option autoImplicit false

/-!
# What a notify command brings about

A run of the command is any run of its pool whose callers tell it the notices of the command, look
whether any are left, and shut it down. Workers, drivers and the manager do what they like, and the
clock reads what it likes. A rehearsal of the command is such a run.
-/

namespace SessionCourier

namespace Pool

variable {ts us : List Turn} {ns : List Notice}

theorem calls_eq (ts : List Turn) : calls ts = (ts.map (·.action)).filterMap Action.call? := by
  rw [calls, List.filterMap_map]
  rfl

theorem call_of_turn {t : Turn} (mem : t ∈ ts) :
    t.action ∈ calls ts ∨ ∃ k m, t.action = .move k m := by
  cases action : t.action with
  | move k m => exact .inr ⟨k, m, rfl⟩
  | notify | delete | register | unregister | offer | shutDown | join =>
    exact .inl (List.mem_filterMap.2 ⟨t, mem, by rw [action]; rfl⟩)

theorem only_of_calls (told : calls ts = ns.map .notify) : OnlyNotified ts := by
  intro t mem
  rcases call_of_turn mem with call | moves
  · rw [told] at call
    obtain ⟨n, -, eq⟩ := List.mem_map.1 call
    exact .inl ⟨n, eq.symm⟩
  · exact .inr moves

def Action.notice? : Action → Option Notice
  | .notify n => some n
  | _ => none

theorem notified_of_calls (told : calls ts = ns.map .notify) : notified ts = ns := by
  have picked : notified ts = (calls ts).filterMap Action.notice? := by
    rw [notified, calls, List.filterMap_filterMap]
    refine List.filterMap_congr fun t _ => ?_
    cases t.action <;> rfl
  rw [picked, told, List.filterMap_map]
  exact List.filterMap_some

theorem ended_of_calls (rest : calls us <+: [.shutDown, .join]) : OnlyEnded us := by
  intro t mem
  rcases call_of_turn mem with call | moves
  · rcases List.mem_cons.1 (rest.subset call) with eq | last
    · exact .inl eq
    · exact .inr (.inl (List.mem_singleton.1 last))
  · exact .inr (.inr moves)

end Pool

namespace CommandLine.Notify

variable {n : Notify} {settings : Settings} {ts us : List Pool.Turn} {seen p : Pool} {h : Handle}

/-- Runs of the command: `ts` up to the last look, which saw the pool `seen`, and `us` after it. -/
structure Run (n : Notify) (settings : Settings) (ts us : List Pool.Turn) (seen p : Pool) :
    Prop where
  started : ∃ p₀ out, Pool.start settings n.registry true = .ok (p₀, out) ∧
    Trace Pool.step p₀ ts seen
  told : Pool.calls ts = n.notices.map .notify
  later : Trace Pool.step seen us p
  ended : Pool.calls us <+: [.shutDown, .join]

theorem Run.serves (run : n.Run settings ts us seen p) (h : Handle) :
    Pool.Serves (if h ∈ n.sessions.map (·.1) then n.due h else []) h ts us seen := by
  obtain ⟨p₀, out, started, before⟩ := run.started
  have fresh := Pool.start_fresh started
  have only := Pool.only_of_calls run.told
  have ends := Pool.ended_of_calls run.ended
  have registered : p₀.registry.address? h = n.address? h := by
    rw [(Pool.start_gives started).1, address_registry]
  have told : Pool.toldFor h ts = n.due h := by
    rw [Pool.toldFor, Pool.notified_of_calls run.told, filter_notices]
  cases given : n.address? h with
  | some addr =>
    have known : p₀.registry.lookup h = .ok addr := by
      rw [Registry.lookup, registered, given]
    rw [if_pos (address_isSome.1 (by rw [given]; rfl)), ← told]
    exact Pool.serves_known fresh before only run.later ends known
  | none =>
    have unknown : p₀.registry.lookup h = .error ⟨h⟩ := by
      rw [Registry.lookup, registered, given]
    have absent : h ∉ n.sessions.map (·.1) := fun mem => by
      have := address_isSome.2 mem
      rw [given] at this
      cases this
    rw [if_neg absent]
    exact Pool.serves_unknown fresh before only run.later ends unknown

theorem Run.address (run : n.Run settings ts us seen p) {x : Pool.Place} {o : Outbox}
    (has : p.outboxAt? x = some o) : n.address? o.handle = some o.address := by
  obtain ⟨p₀, out, started, before⟩ := run.started
  have kept : ∀ t ∈ ts ++ us,
      (∀ h addr, t.action ≠ .register h addr) ∧ ∀ h, t.action ≠ .unregister h := by
    intro t mem
    rcases List.mem_append.1 mem with mem | mem
    · exact (Pool.only_of_calls run.told).registry t mem
    · exact (Pool.ended_of_calls run.ended).registry t mem
  have known := Pool.address_of_trace (Pool.start_fresh started) (before.append run.later) kept has
  rw [(Pool.start_gives started).1, Registry.lookup, address_registry] at known
  cases given : n.address? o.handle with
  | none => rw [given] at known; cases known
  | some addr => rw [given] at known; cases known; rfl

end CommandLine.Notify

namespace Rehearsal

variable {σ : Type} {t t' : Trial σ} {e : Errand σ} {n : CommandLine.Notify} {settings : Settings}
  {world : World σ} {outside : σ} {as : List Pool.Action}

/-- While it is looked whether notices are left, callers do nothing. -/
structure Looks (t : Trial σ) (e : Errand σ) : Prop where
  leads : Leads [] t e.trial
  pending : e.pending = e.trial.pool.pending
  empty : e.gaveUp = false → e.pending = 0

theorem looks_of_wait (deadline pause k : Nat) (t : Trial σ) :
    Looks t (Errand.wait deadline pause k t) := by
  induction k generalizing t with
  | zero => exact ⟨.refl t, rfl, nofun⟩
  | succ k ih =>
    unfold Errand.wait
    dsimp only
    split
    · exact ⟨.refl t, rfl, fun _ => ‹_›⟩
    · split
      · exact ⟨.refl t, rfl, nofun⟩
      · have later := ih (t.sleep pause)
        exact ⟨(t.sleep_leads pause).trans later.leads, later.pending, later.empty⟩

theorem Looks.shutDown (told : Leads as t t') (looked : Looks t' e) : ∃ t'' bs,
    Leads as t t'' ∧ bs <+: [.shutDown, .join] ∧ Leads bs t'' e.trial.shutDown ∧
      e.pending = t''.pool.pending ∧ (e.gaveUp = false → e.pending = 0) := by
  obtain ⟨bs, first, ended⟩ := e.trial.shutDown_leads
  have whole := told.trans looked.leads
  rw [List.append_nil] at whole
  exact ⟨e.trial, bs, whole, first, ended, looked.pending, looked.empty⟩

theorem run_leads (told : Leads as t ((n.notices.map Pool.Action.notify).foldl Trial.act t)) :
    ∃ t' bs, Leads as t t' ∧ bs <+: [.shutDown, .join] ∧ Leads bs t' (Errand.run n t).trial ∧
      (Errand.run n t).pending = t'.pool.pending ∧
      ((Errand.run n t).gaveUp = false → (Errand.run n t).pending = 0) := by
  unfold Errand.run
  dsimp only
  exact Looks.shutDown told (looks_of_wait _ _ _ _)

theorem run_of_notify (played : notify n settings world outside = .ok e) : ∃ ts us seen,
    n.Run settings ts us seen e.trial.pool ∧ e.pending = seen.pending ∧
      (e.gaveUp = false → e.pending = 0) ∧
      e.trial.said = .log (Pool.startedEvent settings) :: (ts ++ us).flatMap (·.outputs) := by
  unfold notify at played
  split at played
  · cases played
  · rename_i p₀ out started
    obtain rfl := Except.ok.inj played
    have told := Trial.tell_leads (t := .create p₀ out world outside (.ok ())) started .refl n.notices
    obtain ⟨t', bs, ⟨ts, run, calls, said⟩, first, ⟨us, run', calls', said'⟩, left, empty⟩ :=
      run_leads told
    refine ⟨ts, us, t'.pool, ⟨⟨p₀, out, started, run⟩, calls, run', calls' ▸ first⟩, left, empty, ?_⟩
    rw [said', said, List.flatMap_append, List.append_assoc]
    exact congrArg (· ++ _) (Pool.start_gives started).2

/-- One session is given twice, and another one only with a grant. -/
def sampleErrand : CommandLine.Notify where
  config := "notifier.json"
  sessions := [(Outbox.sampleSession, ⟨"driver", 6999⟩), (Pool.otherSession, ⟨"driver", 7001⟩),
    (Outbox.sampleSession, ⟨"driver", 7000⟩)]
  grants := [(⟨"s3", by decide⟩, .cpu), (Outbox.sampleSession, .cpu)]
  revokes := [(Outbox.sampleSession, .cpu)]
  force := true
  deadNodes := [(Pool.otherSession, "b"), (Outbox.sampleSession, "a")]
  nodeName := "n1"
  nodeAddress := ⟨"node", 9000⟩
  waitSeconds := 5

/-- All is delivered, and it is looked. -/
def heeded : List (Nat × Pool.Action) :=
  (0, .move 0 .start) :: sampleErrand.notices.map (fun m => (1, .notify m)) ++
    [(2, .move 0 .wake), (3, .move 0 (.survey [0, 1])), (4, .move 0 .proceed),
      (5, .move 0 (.answer (.connected (.ok ())))), (6, .move 0 (.answer (.invoked (.ok ())))),
      (7, .move 0 (.answer (.invoked (.ok ())))), (8, .move 0 (.answer (.invoked (.ok ())))),
      (9, .move 0 .proceed), (10, .move 0 (.answer (.connected (.ok ())))),
      (11, .move 0 (.answer (.invoked (.ok ()))))]

/-- The worker closes its outboxes and stops. -/
def leaving : List (Nat × Pool.Action) :=
  [(12, .shutDown), (13, .move 0 .proceed), (14, .move 0 .stop),
    (15, .move 0 (.sweep [Outbox.sampleSession, Pool.otherSession])), (16, .move 0 .proceed),
    (17, .move 0 (.answer .released)), (18, .move 0 .proceed), (19, .move 0 (.answer .released)),
    (20, .move 0 .proceed), (21, .join)]

end Rehearsal

end SessionCourier
