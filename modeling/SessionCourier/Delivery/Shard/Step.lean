import SessionCourier.Delivery.Shard.Basic

set_option autoImplicit false

namespace SessionCourier.Shard

def saying (before : List Output) (r : Shard × List Output) : Shard × List Output :=
  (r.1, before ++ r.2)

def offer (s : Shard) (id : Nat) (n : Notice) : Option (Shard × List Output) :=
  (s.outbox? id).map fun o =>
    let (o, outputs) := o.enqueue n
    ({ s with outboxes := s.outboxes.set id o }, outputs.map (.outbox id))

def create? (s : Shard) (h : Handle) (a : Address) : Shard × Nat :=
  let id := s.outboxes.length
  ({ s with outboxes := s.outboxes ++ [.create h a], live := s.live ++ [(h, id)] }, id)

def wakeUp (s : Shard) : Shard :=
  match s.stage with
  | .parked since false => { s with stage := .parked since true }
  | _ => { s with permit := true }

def add (s : Shard) (a : Address) (n : Notice) : Option (Shard × List Output) :=
  match s.liveId? n.handle with
  | some id => s.wakeUp.offer id n
  | none =>
    let (s', id) := s.create? n.handle a
    (s'.wakeUp.offer id n).map (saying [.log (s.createdEvent n.handle a)])

def delete (s : Shard) (h : Handle) : Shard :=
  match s.liveId? h with
  | none => s
  | some id =>
    { s with
      live := s.live.filter (·.1 ≠ h)
      outboxes := s.outboxes.modify id Outbox.detach
      deletions := s.deletions ++ [id] }.wakeUp

def over? (outputs : List Outbox.Output) : Option Bool :=
  outputs.findSome? fun
    | .flushed _ alive => some alive
    | .shut _ => some true
    | _ => none

/-- The retries of an outbox ran out: its session is to be ended. -/
def escalate (s : Shard) (h : Handle) (left : List Nat) : Shard × List Output :=
  ({ s with stage := .escalating h left },
    [.count .timedOut, .log (unreachableEvent h), .endSession h .timedOut])

def settle (s : Shard) (id : Nat) (phase : Phase) (o : Outbox) (outputs : List Outbox.Output) :
    Shard × List Output :=
  let s := { s with outboxes := s.outboxes.set id o }
  saying (outputs.map (.outbox id)) <|
    match over? outputs, phase with
    | none, _ => ({ s with stage := .busy id phase }, [])
    | some false, .pass left => s.escalate o.handle left
    | some _, _ => ({ s with stage := .ready phase }, [])

/-- The worker's steps of an outbox all belong to one task. -/
def task : Nat := 0

def take (p : Policy) (s : Shard) (clock id : Nat) (phase : Phase) (a : Outbox.Action) :
    Option (Shard × List Output) := do
  let o ← s.outbox? id
  let (o, outputs) ← Outbox.step p clock o a
  return s.settle id phase o outputs

def close (p : Policy) (s : Shard) (clock id : Nat) (phase : Phase) :
    Option (Shard × List Output) := s.take p clock id phase (.call task .close)

/-- The worker waits. A permit is handed to it. -/
def park (s : Shard) (clock : Nat) : Shard :=
  { s with permit := false, stage := .parked clock s.permit }

/-- The worker stops waiting and begins with the outboxes of deleted sessions. -/
def begin (s : Shard) (phase : List Nat → Phase) (permit : Bool) : Shard :=
  { s with permit := permit, deletions := [], stage := .ready (phase s.deletions) }

def proceed (p : Policy) (s : Shard) (clock : Nat) : Phase → Option (Shard × List Output)
  | .drain (id :: left) => s.close p clock id (.drain left)
  | .pass (id :: left) => s.take p clock id (.pass left) (.call task (.flush clock))
  | .pass [] => some (s.park clock, [])
  | .finalDrain (id :: left) => s.close p clock id (.finalDrain left)
  | .finalClose (h :: left) =>
    match s.liveId? h with
    | none => some ({ s with stage := .ready (.finalClose left) }, [])
    | some id => { s with live := s.live.filter (·.1 ≠ h) }.close p clock id (.finalClose left)
  | .finalClose [] => some ({ s with stage := .stopped }, [.log stoppedEvent])
  | _ => none

def move (p : Policy) (clock : Nat) (s : Shard) : Move → Option (Shard × List Output)
  | .start =>
    if s.stage = .unstarted then some (s.park clock, [.enter .worker, .log startedEvent]) else none
  | .wake =>
    match s.stage with
    | .parked _ true => some (s.begin .drain s.permit, [])
    | _ => none
  | .poll =>
    match s.stage with
    | .parked _ handed => some (s.begin .drain (s.permit || handed), [])
    | _ => none
  | .stop =>
    match s.stage with
    | .parked _ handed => some (s.begin .finalDrain (s.permit || handed), [])
    | _ => none
  | .survey order =>
    if s.stage = .ready (.drain []) ∧ order.isPerm (s.live.map (·.2)) then
      some ({ s with stage := .ready (.pass order) }, [])
    else none
  | .sweep order =>
    if s.stage = .ready (.finalDrain []) ∧ order.isPerm (s.live.map (·.1)) then
      some ({ s with stage := .ready (.finalClose order) }, [])
    else none
  | .proceed =>
    match s.stage with
    | .ready phase => s.proceed p clock phase
    | _ => none
  | .answer a =>
    match s.stage with
    | .busy id phase => s.take p clock id phase (.answer a)
    | _ => none
  | .ended result =>
    match s.stage with
    | .escalating h left =>
      let log := match result with
        | .ok () => []
        | .error e => [Output.log (endFailedEvent h e)]
      some ({ s with stage := .ready (.pass left) }, log)
    | _ => none

def step (p : Policy) (clock : Nat) (s : Shard) : Action → Option (Shard × List Output)
  | .add a n => s.add a n
  | .offer id n => s.offer id n
  | .delete h => some (s.delete h, [])
  | .move m => s.move p clock m

end SessionCourier.Shard
