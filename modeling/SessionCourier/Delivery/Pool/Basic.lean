import SessionCourier.Delivery.Routing
import SessionCourier.Delivery.Shard.Step
import SessionCourier.Session.Registry
import SessionCourier.Settings.Basic

set_option autoImplicit false

/-!
# The pool

A pool has a fixed number of shards, and each session belongs to one of them. Those who notify never
wait: a notice is counted, the session is looked up, and the notice is left with its shard. When the
pool is shut down each worker stops at its next wait, and no notice is taken any more.
-/

namespace SessionCourier

namespace Pool

inductive Shutdown where
  | running
  | stopping
  | stopped
  deriving DecidableEq

end Pool

structure Pool where
  policy : Policy
  /-- In milliseconds. -/
  pollInterval : Nat
  shards : List Shard
  /-- Where the drivers of live sessions are. It changes by itself. -/
  registry : Registry
  shutdown : Pool.Shutdown

namespace Pool

inductive Action where
  | notify (notice : Notice)
  | delete (handle : Handle)
  | register (handle : Handle) (address : Address)
  | unregister (handle : Handle)
  /-- A notice goes straight to an outbox of a shard. -/
  | offer (shard id : Nat) (notice : Notice)
  | shutDown
  /-- All workers have stopped. -/
  | join
  | move (shard : Nat) (m : Shard.Move)

inductive Output where
  | shard (index : Nat) (output : Shard.Output)
  | count (happening : Metrics.Happening)
  | log (event : Log.Event)
  | enter (span : Log.Span)

namespace Output

def event? : Output → Option Log.Event
  | .shard _ o => o.event?
  | .log e => some e
  | _ => none

def happening? : Output → Option Metrics.Happening
  | .shard _ o => o.happening?
  | .count h => some h
  | _ => none

def span? : Output → Option Log.Span
  | .shard _ (.enter s) => some s
  | .enter s => some s
  | _ => none

def ended? : Output → Option (Handle × Status)
  | .shard _ (.endSession h s) => some (h, s)
  | _ => none

end Output

inductive StartFailure where
  | noThreads
  | noPollInterval
  /-- There is nothing that the workers could run on. -/
  | noRuntime
  deriving DecidableEq, Repr

def StartFailure.message : StartFailure → String
  | .noThreads => "invalid notifier configuration: thread_count must be at least 1"
  | .noPollInterval => "invalid notifier configuration: poll_interval_ms must be positive"
  | .noRuntime =>
    "notifier runtime unavailable: there is no reactor running, must be called from the context " ++
      "of a Tokio 1.x runtime"

def cancelled (p : Pool) : Bool := p.shutdown ≠ .running

def shardOf (p : Pool) (h : Handle) : Nat := route p.shards.length h

def outbox? (p : Pool) (shard id : Nat) : Option Outbox := p.shards[shard]? >>= (·.outbox? id)

def liveId? (p : Pool) (h : Handle) : Option (Nat × Nat) :=
  (p.shards[p.shardOf h]? >>= (·.liveId? h)).map (p.shardOf h, ·)

def pending (p : Pool) : Nat := p.shards.foldr (·.pending + ·) 0

def size (p : Pool) : Nat := p.shards.foldr (·.live.length + ·) 0

def startedEvent (s : Settings) : Log.Event where
  level := .info
  message := "session notifier started"
  fields := [("workers", Decimal.render s.threadCount.toNat),
    ("poll_interval_ms", Decimal.render s.pollIntervalMs.toNat),
    ("max_retries", Decimal.render s.retry.maxRetries.toNat)]

def stoppedEvent : Log.Event := ⟨.info, "session notifier stopped", []⟩

def tooLateEvent (n : Notice) : Log.Event where
  level := .warn
  message := "notifier stopped, dropping notification"
  fields := [("method", n.method.label)]

def unknownEvent (n : Notice) (e : UnknownSession) : Log.Event where
  level := .warn
  message := "dropping notification for unknown session"
  fields := [("method", n.method.label), ("error", e.message)]

def queuedEvent (shard : Nat) (n : Notice) : Log.Event where
  level := .debug
  message := "notification queued"
  fields := [("worker", Decimal.render shard), ("method", n.method.label)]

def deletedEvent (shard : Nat) : Log.Event where
  level := .debug
  message := "session marked for deletion"
  fields := [("worker", Decimal.render shard)]

end Pool

end SessionCourier
