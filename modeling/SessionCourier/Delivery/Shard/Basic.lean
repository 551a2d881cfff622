import SessionCourier.Delivery.Outbox.Step
import SessionCourier.Session.Status

set_option autoImplicit false

/-!
# Shards

A shard holds the outboxes of its sessions and has one worker. Outboxes are numbered in the order in
which they were created, and none is forgotten: an outbox is live while its session has it, then it
waits to be closed, then it is closed. Whoever adds a notice or deletes a session wakes the worker.
A wake-up is handed to a worker that waits for one; otherwise it is kept as a permit for the next
wait, and several are one permit.

A pass of the worker closes the outboxes of deleted sessions and then flushes the live ones, one
after the other. At the end it closes all that are left.
-/

namespace SessionCourier

namespace Shard

/-- What the worker still has to do before it waits again. -/
inductive Phase where
  /-- Outboxes of deleted sessions to close; then a pass. -/
  | drain (left : List Nat)
  | pass (left : List Nat)
  /-- Outboxes of deleted sessions to close; then all live ones. -/
  | finalDrain (left : List Nat)
  /-- Sessions whose outboxes are to be closed. -/
  | finalClose (left : List Handle)
  deriving DecidableEq

inductive Stage where
  | unstarted
  /-- Waits for a wake-up, for the poll interval to pass or for the end. -/
  | parked (since : Nat) (handed : Bool)
  | ready (phase : Phase)
  /-- Waits until an outbox is flushed or closed. -/
  | busy (id : Nat) (phase : Phase)
  /-- Waits for the cluster manager to end a session. -/
  | escalating (handle : Handle) (left : List Nat)
  | stopped
  deriving DecidableEq

end Shard

structure Shard where
  index : Nat
  outboxes : List Outbox
  live : List (Handle × Nat)
  /-- Outboxes of deleted sessions that the worker has not begun to close. -/
  deletions : List Nat
  /-- A wake-up for the next wait. -/
  permit : Bool
  stage : Shard.Stage

namespace Shard

def create (index : Nat) : Shard := ⟨index, [], [], [], false, .unstarted⟩

inductive Move where
  | start
  | wake
  | poll
  | stop
  /-- Begins a pass over the live outboxes, in some order. -/
  | survey (order : List Nat)
  /-- Begins to close all live outboxes, in some order. -/
  | sweep (order : List Handle)
  | proceed
  | answer (a : Outbox.Answer)
  | ended (result : Except ManagerFailure Unit)

inductive Action where
  | add (address : Address) (notice : Notice)
  /-- A notice goes straight to an outbox; the worker is not woken. -/
  | offer (id : Nat) (notice : Notice)
  | delete (handle : Handle)
  | move (m : Move)

inductive Output where
  | outbox (id : Nat) (output : Outbox.Output)
  | count (happening : Metrics.Happening)
  | log (event : Log.Event)
  | enter (span : Log.Span)
  | endSession (handle : Handle) (status : Status)

namespace Output

def event? : Output → Option Log.Event
  | .outbox _ o => o.event?
  | .log e => some e
  | _ => none

def happening? : Output → Option Metrics.Happening
  | .outbox _ o => o.happening?
  | .count h => some h
  | _ => none

end Output

def outbox? (s : Shard) (id : Nat) : Option Outbox := s.outboxes[id]?

def liveId? (s : Shard) (h : Handle) : Option Nat := s.live.lookup h

def liveOutbox? (s : Shard) (h : Handle) : Option Outbox := s.liveId? h >>= s.outbox?

def pending (s : Shard) : Nat :=
  s.live.foldr (fun l n => ((s.outbox? l.2).elim 0 fun o => o.queue.length) + n) 0

def startedEvent : Log.Event := ⟨.debug, "notifier worker started", []⟩

def stoppedEvent : Log.Event := ⟨.debug, "notifier worker stopped", []⟩

def workerField (s : Shard) : String × String := ("worker", Decimal.render s.index)

def createdEvent (s : Shard) (h : Handle) (a : Address) : Log.Event where
  level := .debug
  message := "creating notification context"
  fields := [s.workerField, ("session_id", h.text), ("address", a.render)]

def unreachableEvent (h : Handle) : Log.Event where
  level := .warn
  message := "session driver unreachable, ending session"
  fields := [("session_id", h.text)]

def endFailedEvent (h : Handle) (e : ManagerFailure) : Log.Event where
  level := .warn
  message := "failed to end timed out session"
  fields := [("session_id", h.text), ("error", e.message)]

end Shard

end SessionCourier
