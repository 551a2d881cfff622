import SessionCourier.CommandLine.Invocation
import SessionCourier.Metrics.Snapshot
import SessionCourier.Rehearsal.Trial

set_option autoImplicit false

namespace SessionCourier.Rehearsal

structure Errand (σ : Type) where
  trial : Trial σ
  /-- How many notices were left when it was last looked. -/
  pending : Nat
  gaveUp : Bool

namespace Errand

variable {σ : Type}

def wait (deadline pause : Nat) : Nat → Trial σ → Errand σ
  | 0, t => ⟨t, t.pool.pending, true⟩
  | n + 1, t =>
    let pending := t.pool.pending
    if pending = 0 then ⟨t, pending, false⟩
    else if deadline ≤ t.clock then ⟨t, pending, true⟩
    else wait deadline pause n (t.sleep pause)

def metrics (e : Errand σ) : Metrics.Store :=
  (e.trial.happenings.foldl Metrics.Store.report .empty).apply
    (.set Metrics.pending (UInt64.ofNat e.pending).toFloat.toBits)

/-- Each look but the last is followed by a pause, so the deadline bounds their number. -/
def run (n : CommandLine.Notify) (t : Trial σ) : Errand σ :=
  let t := (n.notices.map Pool.Action.notify).foldl Trial.act t
  let deadline := t.clock + n.waitSeconds.toNat * 1000
  let e := wait deadline t.pool.pollInterval (n.waitSeconds.toNat * 1000 + 1) t
  { e with trial := e.trial.shutDown }

end Errand

def notify {σ : Type} (n : CommandLine.Notify) (settings : Settings) (world : World σ)
    (outside : σ) : Except Pool.StartFailure (Errand σ) :=
  match Pool.start settings n.registry true with
  | .error failure => .error failure
  | .ok (pool, said) => .ok (Errand.run n (.create pool said world outside (.ok ())))

end SessionCourier.Rehearsal
