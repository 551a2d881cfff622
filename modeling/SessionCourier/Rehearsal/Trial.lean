import SessionCourier.Delivery.Pool.Step
import SessionCourier.Delivery.Shard.Schedule
import SessionCourier.Rehearsal.World

set_option autoImplicit false

/-!
# Rehearsals of a pool

A trial holds a pool and the world that its outboxes talk to. What callers do happens at once. Then,
when time passes, each worker does what it can without the clock, one worker after the other; the
clock jumps to the next moment at which one of them has something to do.
-/

namespace SessionCourier.Rehearsal

structure Trial (σ : Type) where
  pool : Pool
  world : World σ
  outside : σ
  /-- What the cluster manager answers. -/
  manager : Except ManagerFailure Unit
  clock : Nat
  /-- For each shard the answer that its worker waits for. -/
  awaited : List (Option Awaited)
  said : List Pool.Output

namespace Trial

variable {σ : Type}

def create (pool : Pool) (said : List Pool.Output) (world : World σ) (outside : σ)
    (manager : Except ManagerFailure Unit) : Trial σ :=
  ⟨pool, world, outside, manager, 0, pool.shards.map fun _ => none, said⟩

def act (t : Trial σ) (a : Pool.Action) : Trial σ :=
  match t.pool.step t.clock a with
  | none => t
  | some (pool, outputs) => { t with pool := pool, said := t.said ++ outputs }

/-- Hands to the world what a worker asks for. -/
def ask (t : Trial σ) (shard : Nat) : Pool.Output → Trial σ
  | .shard _ (.outbox id output) =>
    match t.pool.outbox? shard id with
    | none => t
    | some o =>
      match t.world.ask t.outside t.clock o.address output with
      | (outside, some w) =>
        { t with outside := outside, awaited := t.awaited.set shard (some w) }
      | (outside, none) => { t with outside := outside }
  | _ => t

def move (t : Trial σ) (shard : Nat) (m : Shard.Move) : Trial σ :=
  match t.pool.step t.clock (.move shard m) with
  | none => t
  | some (pool, outputs) =>
    outputs.foldl (fun t output => t.ask shard output)
      { t with pool := pool, said := t.said ++ outputs }

/-- The answer comes that a worker waits for. -/
def receive (t : Trial σ) (shard id : Nat) (w : Awaited) : Trial σ :=
  match t.pool.outbox? shard id with
  | none => t
  | some o =>
    { t with
      outside := t.world.arrive t.outside o.address w
      awaited := t.awaited.set shard none }.move shard (.answer w.answer)

/-- Polls of an idle worker change nothing but the time since when it waits, so of those before
`limit` only the last is played. -/
def lastPoll (interval : Nat) (limit : Option Nat) (moment : Nat) : Nat :=
  limit.elim moment fun l => moment + interval * ((l - moment) / interval)

def next? (limit : Option Nat) (t : Trial σ) (s : Shard) : Option (Nat × (Trial σ → Trial σ)) :=
  let interval := t.pool.pollInterval
  match s.due? t.clock interval t.pool.cancelled, s.stage with
  | some (moment, .poll), _ =>
    let moment := if s.isIdle then lastPoll interval limit moment else moment
    some (moment, fun t => t.move s.index .poll)
  | some (moment, m), _ => some (moment, fun t => t.move s.index m)
  | none, .busy id _ =>
    match t.awaited[s.index]? with
    | some (some w) => some (w.due, fun t => t.receive s.index id w)
    | _ => none
  | none, .escalating .. => some (t.clock, fun t => t.move s.index (.ended t.manager))
  | none, _ => none

def queued (s : Shard) : Nat := s.outboxes.foldr (·.queue.length + ·) 0

/-- A bound on what a worker can do without the clock: three passes at most. -/
def load (s : Shard) : Nat := 24 + 24 * s.outboxes.length + 4 * queued s

def settleFor (limit : Option Nat) (shard : Nat) : Nat → Trial σ → Trial σ
  | 0, t => t
  | n + 1, t =>
    match t.pool.shards[shard]? with
    | none => t
    | some s =>
      match next? limit t s with
      | none => t
      | some (moment, go) => if moment ≤ t.clock then settleFor limit shard n (go t) else t

def settleAll (limit : Option Nat) (t : Trial σ) : Trial σ :=
  t.pool.shards.foldl (fun t s => settleFor limit s.index (load s) t) t

def settle (t : Trial σ) : Trial σ := settleAll (some t.clock) t

/-- The next moment at which a worker has something to do. -/
def nextMoment? (limit : Option Nat) (t : Trial σ) : Option Nat :=
  (t.pool.shards.filterMap fun s => (next? limit t s).map (·.1)).min?

def runFor (limit : Option Nat) : Nat → Trial σ → Trial σ
  | 0, t => t
  | n + 1, t =>
    let t := settleAll limit t
    match nextMoment? limit t with
    | none => t
    | some moment =>
      if limit.all (moment ≤ ·) then runFor limit n { t with clock := moment } else t

def sleep (t : Trial σ) (ms : Nat) : Trial σ :=
  { runFor (some (t.clock + ms)) (ms + 1) t with clock := t.clock + ms }

/-- Shuts the pool down and waits for its workers. The clock jumps at most once for each thing that
a worker can still do. -/
def shutDown (t : Trial σ) : Trial σ :=
  let t := t.act .shutDown
  (runFor none (t.pool.shards.foldr (load · + ·) 1) t).act .join

def log (t : Trial σ) : List Log.Event := t.said.filterMap Pool.Output.event?

def happenings (t : Trial σ) : List Metrics.Happening := t.said.filterMap Pool.Output.happening?

def ended (t : Trial σ) : List (Handle × Status) := t.said.filterMap Pool.Output.ended?

end Trial

end SessionCourier.Rehearsal
