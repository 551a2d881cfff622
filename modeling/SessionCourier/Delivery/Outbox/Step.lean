import SessionCourier.Delivery.Outbox.Basic

set_option autoImplicit false

namespace SessionCourier.Outbox

def enqueue (o : Outbox) (n : Notice) : Outbox × List Output :=
  if o.accepts then ({ o with queue := o.queue ++ [n] }, [.accepted n])
  else (o, [.refused n, .log (o.refusedEvent n)])

def detach (o : Outbox) : Outbox := { o with detached := true, queue := [] }

def saying (before : List Output) (r : Outbox × List Output) : Outbox × List Output :=
  (r.1, before ++ r.2)

def finish (o : Outbox) (task : Nat) (alive : Bool) : Outbox × List Output :=
  ({ o with holder := none }, [.flushed task alive])

/-- The task sends the head of the queue over a link that is open. -/
def invoke (o : Outbox) (clock task now link : Nat) (head : Notice) : Outbox × List Output :=
  ({ o with holder := some (task, .invoking now link head clock) }, [.invoke link head])

/-- The task goes on with the head of the queue, if there is one. -/
def attempt (o : Outbox) (clock task now : Nat) : Outbox × List Output :=
  if o.detached then o.finish task true
  else
    match o.queue with
    | [] => o.finish task true
    | head :: _ =>
      match o.link with
      | some link => o.invoke clock task now link head
      | none => ({ o with holder := some (task, .connecting now head) }, [.connect o.address])

def enter (o : Outbox) (clock task : Nat) : Job → Outbox × List Output
  | .flush now =>
    if o.nextAttempt.any (now < ·) then o.finish task true else o.attempt clock task now
  | .close =>
    match o.link with
    | none => (o, [.log o.closedEvent, .shut task])
    | some link =>
      ({ o with link := none, holder := some (task, .closing link) }, [.release link])

def acquire (o : Outbox) (clock task : Nat) (job : Job) : Outbox × List Output :=
  if o.holder.isNone && o.waiting.isEmpty then o.enter clock task job
  else ({ o with waiting := o.waiting ++ [(task, job)] }, [])

def call (o : Outbox) (clock task : Nat) : Job → Outbox × List Output
  | .flush now =>
    if o.exhausted || o.closed then (o, [.flushed task true])
    else o.acquire clock task (.flush now)
  | .close =>
    if o.closed then (o, [.shut task])
    else { o with closed := true }.detach.acquire clock task .close

def fail (p : Policy) (o : Outbox) (clock task now : Nat) (head : Notice) (f : Failure) :
    Outbox × List Output :=
  let failures := o.failures + 1
  let counted := Output.count (.failed head.method)
  if o.detached then
    saying [counted, .log (o.abandonedEvent head f)] <|
      { o with failures := failures }.finish task true
  else if p.isExhausted failures then
    saying [counted, .log (o.exhaustedEvent failures f)] <|
      { o with failures := failures, exhausted := true, queue := [], nextAttempt := none }.finish
        task false
  else
    let delay := p.delay failures
    saying [counted, .log (o.retryEvent head failures delay f)] <|
      { o with failures := failures, nextAttempt := some (max now clock + delay) }.finish task true

def deliver (o : Outbox) (clock task now : Nat) (head : Notice) (since : Nat) :
    Outbox × List Output :=
  let counted := Output.count (.delivered head.method (.ofMilliseconds (clock - since)))
  let recovered := if 0 < o.failures then [Output.log o.recoveredEvent] else []
  saying (counted :: recovered) <|
    { o with queue := o.queue.tail, failures := 0, nextAttempt := none }.attempt clock task now

def answered (p : Policy) (o : Outbox) (clock task : Nat) :
    Stage → Answer → Option (Outbox × List Output)
  | .connecting now head, .connected (.ok ()) =>
    some <| saying [.log o.openedEvent] <|
      { o with link := some o.opened, opened := o.opened + 1 }.invoke clock task now o.opened head
  | .connecting now head, .connected (.error f) => some (fail p o clock task now head f)
  | .invoking now _ head since, .invoked (.ok ()) => some (o.deliver clock task now head since)
  | .invoking now link head _, .invoked (.error f) =>
    some ({ o with link := none, holder := some (task, .dropping now link head f) },
      [.release link])
  | .dropping now _ head f, .released => some (fail p o clock task now head f)
  | .closing _, .released =>
    some ({ o with holder := none }, [.log o.closedEvent, .shut task])
  | _, _ => none

def step (p : Policy) (clock : Nat) (o : Outbox) : Action → Option (Outbox × List Output)
  | .enqueue n => some (o.enqueue n)
  | .detach => some (o.detach, [])
  | .call task job => some (o.call clock task job)
  | .resume =>
    match o.holder, o.waiting with
    | none, (task, job) :: rest => some ({ o with waiting := rest }.enter clock task job)
    | _, _ => none
  | .answer a =>
    match o.holder with
    | some (task, stage) => answered p o clock task stage a
    | none => none

end SessionCourier.Outbox
