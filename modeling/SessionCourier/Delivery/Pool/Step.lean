import SessionCourier.Delivery.Pool.Basic

set_option autoImplicit false

namespace SessionCourier.Pool

/-- A pool for settings; `runtime` says whether there is something its workers can run on. -/
def start (settings : Settings) (registry : Registry) (runtime : Bool) :
    Except StartFailure (Pool × List Output) :=
  if settings.threadCount = 0 then .error .noThreads
  else if settings.pollIntervalMs = 0 then .error .noPollInterval
  else if !runtime then .error .noRuntime
  else
    .ok ({ policy := settings.retry.policy
           pollInterval := settings.pollIntervalMs.toNat
           shards := (List.range settings.threadCount.toNat).map Shard.create
           registry := registry
           shutdown := .running },
      [.log (startedEvent settings)])

def within (p : Pool) (clock shard : Nat) (a : Shard.Action) : Option (Pool × List Output) := do
  let s ← p.shards[shard]?
  let (s, outputs) ← Shard.step p.policy clock s a
  return ({ p with shards := p.shards.set shard s }, outputs.map (.shard shard))

def saying (before : List Output) (r : Pool × List Output) : Pool × List Output :=
  (r.1, before ++ r.2)

def span : Notice → Log.Span
  | .grant .. => .grant
  | .revoke .. => .revoke
  | .deadNode .. => .deadNode

/-- Grants and revokes are counted for each resource, whatever becomes of the notice. -/
def happenings : Notice → List Metrics.Happening
  | .grant _ gs => gs.map fun g => .granted g.resource
  | .revoke _ gs _ => gs.map fun g => .revoked g.resource
  | .deadNode .. => []

def notify (p : Pool) (clock : Nat) (n : Notice) : Option (Pool × List Output) :=
  (saying (.enter (span n) :: (happenings n).map .count)) <$>
    if p.cancelled then some (p, [.log (tooLateEvent n)])
    else
      match p.registry.lookup n.handle with
      | .error e => some (p, [.log (unknownEvent n e)])
      | .ok a =>
        let shard := p.shardOf n.handle
        saying [.log (queuedEvent shard n)] <$> p.within clock shard (.add a n)

def delete (p : Pool) (clock : Nat) (h : Handle) : Option (Pool × List Output) :=
  let shard := p.shardOf h
  let log := if (p.liveId? h).isSome then [Output.log (deletedEvent shard)] else []
  (fun r => (r.1, Output.enter .delete :: r.2 ++ log)) <$> p.within clock shard (.delete h)

/-- The first to shut the pool down waits for the workers; whoever comes later does not. -/
def shutDown (p : Pool) : Pool × List Output :=
  match p.shutdown with
  | .running => ({ p with shutdown := .stopping }, [])
  | _ => (p, [.log stoppedEvent])

/-- Workers stop only when the pool is shut down. -/
def move (p : Pool) (clock shard : Nat) : Shard.Move → Option (Pool × List Output)
  | .stop => if p.cancelled then p.within clock shard (.move .stop) else none
  | m => p.within clock shard (.move m)

def step (clock : Nat) (p : Pool) : Action → Option (Pool × List Output)
  | .notify n => p.notify clock n
  | .delete h => p.delete clock h
  | .register h a => some ({ p with registry := p.registry.register h a }, [])
  | .unregister h => some ({ p with registry := p.registry.erase h }, [])
  | .offer shard id n => p.within clock shard (.offer id n)
  | .shutDown => some p.shutDown
  | .join =>
    if p.shutdown = .stopping ∧ p.shards.all (·.stage = .stopped) then
      some ({ p with shutdown := .stopped }, [.log stoppedEvent])
    else none
  | .move shard m => p.move clock shard m

end SessionCourier.Pool
