import SessionCourier.Delivery.Backoff
import SessionCourier.Delivery.Failure
import SessionCourier.Log.Event
import SessionCourier.Metrics.Deliveries
import SessionCourier.Session.Address

set_option autoImplicit false

/-!
# Outboxes

An outbox holds the notices that wait for one session, and what is known about reaching its driver.
Any task may add a notice or detach the outbox at any time. To flush it (to deliver what waits) or
to close it a task needs the delivery lock, which tasks get in the order in which they asked. The
task that has the lock waits for an answer from outside: to a connect, to an invoke or to the
release of a link. `Stage` says which, with all that the task has to remember meanwhile.

Readings of the clock are in milliseconds.
-/

namespace SessionCourier

namespace Outbox

/-- What the task that has the lock waits for. A flush keeps the moment it was called with, and the
notice that was the head of the queue when the attempt began. -/
inductive Stage where
  | connecting (now : Nat) (head : Notice)
  | invoking (now link : Nat) (head : Notice) (since : Nat)
  /-- A failed attempt gives up its link. -/
  | dropping (now link : Nat) (head : Notice) (failure : Failure)
  | closing (link : Nat)
  deriving DecidableEq

inductive Job where
  | flush (now : Nat)
  | close
  deriving DecidableEq

end Outbox

structure Outbox where
  handle : Handle
  address : Address
  queue : List Notice
  exhausted : Bool
  /-- Nothing more is accepted or attempted. -/
  detached : Bool
  closed : Bool
  /-- The link that is held open. Links are numbered in the order in which they were opened. -/
  link : Option Nat
  opened : Nat
  /-- Failed attempts in a row. -/
  failures : UInt32
  /-- No attempt before this moment. -/
  nextAttempt : Option Nat
  holder : Option (Nat × Outbox.Stage)
  /-- Those that wait for the lock, in the order in which they asked. -/
  waiting : List (Nat × Outbox.Job)
  deriving DecidableEq

namespace Outbox

def create (handle : Handle) (address : Address) : Outbox where
  handle := handle
  address := address
  queue := []
  exhausted := false
  detached := false
  closed := false
  link := none
  opened := 0
  failures := 0
  nextAttempt := none
  holder := none
  waiting := []

def accepts (o : Outbox) : Bool := !o.exhausted && !o.detached

/-- An answer from outside to the task that has the lock. -/
inductive Answer where
  | connected (result : Except Failure Unit)
  | invoked (result : Except Failure Unit)
  | released

inductive Action where
  | enqueue (notice : Notice)
  | detach
  | call (task : Nat) (job : Job)
  /-- The next task gets the lock that was given back. -/
  | resume
  | answer (a : Answer)

/-- What an action makes the outbox do or say. -/
inductive Output where
  | accepted (notice : Notice)
  | refused (notice : Notice)
  | connect (address : Address)
  | invoke (link : Nat) (notice : Notice)
  | release (link : Nat)
  | count (happening : Metrics.Happening)
  | log (event : Log.Event)
  /-- A flush is over; `alive` is false if it used up the retries. -/
  | flushed (task : Nat) (alive : Bool)
  | shut (task : Nat)

namespace Output

def event? : Output → Option Log.Event
  | .log e => some e
  | _ => none

def happening? : Output → Option Metrics.Happening
  | .count h => some h
  | _ => none

end Output

def sessionField (o : Outbox) : String × String := ("session_id", o.handle.text)

def refusedEvent (o : Outbox) (n : Notice) : Log.Event where
  level := .debug
  message := "context not accepting calls, dropping"
  fields := [o.sessionField, ("method", n.method.label)]

def openedEvent (o : Outbox) : Log.Event where
  level := .debug
  message := "driver connection opened"
  fields := [o.sessionField, ("address", o.address.render)]

def recoveredEvent (o : Outbox) : Log.Event where
  level := .debug
  message := "delivery recovered"
  fields := [o.sessionField, ("failures", Decimal.render o.failures.toNat)]

def abandonedEvent (o : Outbox) (head : Notice) (f : Failure) : Log.Event where
  level := .debug
  message := "delivery failed after session was deleted"
  fields := [o.sessionField, ("method", head.method.label), ("error", f.message)]

def exhaustedEvent (o : Outbox) (failures : UInt32) (f : Failure) : Log.Event where
  level := .warn
  message := "delivery retries exhausted"
  fields := [o.sessionField, ("address", o.address.render),
    ("failures", Decimal.render failures.toNat), ("dropped", Decimal.render o.queue.length),
    ("kind", f.kind), ("error", f.message)]

def retryEvent (o : Outbox) (head : Notice) (failures : UInt32) (delay : Nat) (f : Failure) :
    Log.Event where
  level := .debug
  message := "delivery failed, backing off"
  fields := [o.sessionField, ("method", head.method.label),
    ("failures", Decimal.render failures.toNat), ("retry_in_ms", Decimal.render delay),
    ("kind", f.kind), ("error", f.message)]

def closedEvent (o : Outbox) : Log.Event where
  level := .debug
  message := "notification context closed"
  fields := [o.sessionField]

end Outbox

end SessionCourier
