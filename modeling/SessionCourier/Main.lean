import SessionCourier.CommandLine.Ending
import SessionCourier.CommandLine.Parser
import SessionCourier.Delivery.Pool.Step
import SessionCourier.Delivery.Shard.Schedule
import SessionCourier.Log.Line
import SessionCourier.Wire.Link
import SessionCourier.Wire.LoggingDriver
import Std.Async.DNS
import Std.Async.Signal
import Std.Async.TCP
import Std.Async.Timer
import Std.Sync.CancellationToken

set_option autoImplicit false

namespace SessionCourier.Program

open Std.Async
open Std.Net (SocketAddress)

structure Console where
  limit : Option Log.Level
  json : Bool

/-- A level in the environment takes precedence; `off` shows nothing. -/
def Console.ofInvocation (i : CommandLine.Invocation) : IO Console := do
  let limit := match ← IO.getEnv "RUST_LOG" with
    | none => some i.logLevel
    | some "off" => none
    | some text => some ((CommandLine.level? text).getD i.logLevel)
  return ⟨limit, i.jsonLogs⟩

def Console.say (c : Console) (e : Log.Event) : IO Unit := do
  if c.limit.any e.level.within then
    let time := (← Std.Time.DateTime.now).toISO8601String
    let out ← IO.getStdout
    out.putStrLn (if c.json then e.jsonLine time else e.plainLine time)
    out.flush

/-- Where an address can be reached. A host between brackets is what stands between them. -/
def resolve (a : Address) : Async (List SocketAddress) := do
  let host := (a.host.dropPrefix "[").toString.dropSuffix "]" |>.toString
  let found ← DNS.getAddrInfo host (Decimal.render a.port.toNat)
  return found.toList.map fun
    | .v4 ip => .v4 ⟨ip, a.port⟩
    | .v6 ip => .v6 ⟨ip, a.port⟩

def attempt {α : Type} (act : Async α) : Async (Except String α) := do
  try return .ok (← act) catch e => return .error (toString e)

def within {α : Type} (ms : Nat) (act : Async α) : Async (Option α) :=
  Async.race (some <$> act) do
    sleep (Std.Time.Millisecond.Offset.ofNat ms)
    return none

structure Connection where
  socket : TCP.Socket.Client
  link : Wire.Link
  incoming : Wire.Incoming

def connectAny : List SocketAddress → Async (Except String TCP.Socket.Client)
  | [] => return .error "no address"
  | place :: places => do
    let socket ← TCP.Socket.Client.mk
    match ← attempt (socket.connect place) with
    | .ok () => return .ok socket
    | .error reason => if places.isEmpty then return .error reason else connectAny places

def connect (t : Settings.Transport) (a : Address) : Async (Except Failure Connection) := do
  match ← within t.connectTimeoutMs.toNat (attempt (resolve a >>= connectAny)) with
  | none => return .error (.timeout t.connectTimeout)
  | some (.error reason) | some (.ok (.error reason)) => return .error (.connect a.render reason)
  | some (.ok (.ok socket)) =>
    socket.noDelay
    return .ok ⟨socket, .fresh t.callTimeout, .empty⟩

def chunk : UInt64 := 65536

partial def Connection.hear (c : Connection) (late : Nat) : Async Connection := do
  let now ← IO.monoMsNow
  if (c.incoming.read (Wire.maxReply + 1)).1.isSome || late ≤ now then return c
  let timer ← Selector.sleep (Std.Time.Millisecond.Offset.ofNat (late - now))
  let received ← Selectable.one #[
    .case (c.socket.recvSelector chunk) fun bytes => return some bytes,
    .case timer fun _ => return none]
  match received with
  | none => return c
  | some none => return { c with incoming := c.incoming.finish }
  | some (some bytes) => Connection.hear { c with incoming := c.incoming.receive bytes.toList } late

def Connection.invoke (t : Settings.Transport) (c : Connection) (n : Notice) :
    Async (Connection × Except Failure Unit) := do
  let late := (← IO.monoMsNow) + t.callTimeoutMs.toNat
  let exchange := do
    c.socket.send ⟨(Wire.lineOf (c.link.request n).line).toArray⟩
    c.hear late
  match ← attempt exchange with
  | .error reason => return (c, .error (.io reason))
  | .ok c =>
    let invoked := c.link.invoke n c.incoming
    return ({ c with link := invoked.link, incoming := invoked.incoming }, invoked.result)

structure Courier where
  console : Console
  transport : Settings.Transport
  pool : IO.Ref Pool
  metrics : IO.Ref Metrics.Store
  ended : Std.CancellationToken
  zero : Nat

abbrev Connections := List ((Nat × Nat) × Connection)

namespace Courier

def clock (c : Courier) : IO Nat := return (← IO.monoMsNow) - c.zero

def report (c : Courier) (outputs : List Pool.Output) : IO Unit := do
  for output in outputs do
    if let some e := output.event? then c.console.say e
    if let some h := output.happening? then c.metrics.modify (·.report h)

def act (c : Courier) (a : Pool.Action) : IO (List Pool.Output) := do
  let now ← c.clock
  let outputs ← c.pool.modifyGet fun p =>
    match p.step now a with
    | some (p, outputs) => (outputs, p)
    | none => ([], p)
  c.report outputs
  return outputs

def endRequested (h : Handle) (s : Status) : Log.Event :=
  ⟨.info, "session end requested", [("session_id", h.text), ("status", s.label)]⟩

def gaveUp (pending : Nat) : Log.Event :=
  ⟨.warn, "gave up waiting for delivery", [("pending", Decimal.render pending)]⟩

def perform (c : Courier) (id : Nat) (o : Outbox) (held : Connections) :
    Outbox.Output → Async (Connections × Option Outbox.Answer)
  | .connect a => do
    match ← connect c.transport a with
    | .ok connection => return (((id, o.opened), connection) :: held, some (.connected (.ok ())))
    | .error f => return (held, some (.connected (.error f)))
  | .invoke link n => do
    match held.lookup (id, link) with
    | none => return (held, some (.invoked (.error .closed)))
    | some connection =>
      let (connection, result) ← connection.invoke c.transport n
      return (((id, link), connection) :: held.filter (·.1 ≠ (id, link)), some (.invoked result))
  | .release link => do
    if let some connection := held.lookup (id, link) then
      discard <| attempt connection.socket.shutdown
    return (held.filter (·.1 ≠ (id, link)), some .released)
  | _ => return (held, none)

partial def follow (c : Courier) (shard : Nat) (held : Connections) (outputs : List Pool.Output) :
    Async Connections := do
  let mut held := held
  for output in outputs do
    match output with
    | .shard _ (.outbox id asked) =>
      if let some o := (← c.pool.get).outbox? shard id then
        let (now, answer) ← c.perform id o held asked
        held := now
        if let some a := answer then
          held ← c.follow shard held (← c.act (.move shard (.answer a)))
    | .shard _ (.endSession h s) =>
      c.console.say (endRequested h s)
      held ← c.follow shard held (← c.act (.move shard (.ended (.ok ()))))
    | _ => pure ()
  return held

def pause (c : Courier) (ms : Nat) : Async Unit := do
  let timer ← Selector.sleep (Std.Time.Millisecond.Offset.ofNat ms)
  Selectable.one #[
    .case timer fun _ => return (),
    .case c.ended.selector fun _ => return ()]

partial def work (c : Courier) (shard : Nat) (held : Connections) : Async Unit := do
  let pool ← c.pool.get
  let now ← c.clock
  match pool.shards[shard]? >>= (·.due? now pool.pollInterval pool.cancelled) with
  | none => return
  | some (moment, m) =>
    if moment ≤ now then
      c.work shard (← c.follow shard held (← c.act (.move shard m)))
    else
      c.pause (moment - now)
      c.work shard held

partial def wait (c : Courier) (late : Nat) : Async Unit := do
  let pool ← c.pool.get
  c.metrics.modify (·.apply (.set Metrics.pending (UInt64.ofNat pool.pending).toFloat.toBits))
  if pool.pending = 0 then return
  if late ≤ (← c.clock) then
    c.console.say (gaveUp pool.pending)
  else
    sleep (Std.Time.Millisecond.Offset.ofNat pool.pollInterval)
    c.wait late

end Courier

def readFile (path : String) : IO Settings.File := do
  try
    return .content (← IO.FS.readBinFile path)
  catch
    | .noFileOrDirectory .. => return .missing
    | .inappropriateType .. => return .directory
    | e => return .unreadable (toString e)

def environment : IO Settings.Environment :=
  return ⟨← IO.getEnv Settings.pollIntervalVariable, ← IO.getEnv Settings.threadCountVariable⟩

def notify (console : Console) (n : CommandLine.Notify) : Async CommandLine.Ending := do
  let loaded := Settings.load n.config (← readFile n.config) (← environment)
  loaded.log.forM fun e => console.say e
  match loaded.settings with
  | .error f => return .ofComplaint (.ofLoadFailure n.config f)
  | .ok settings =>
    match Pool.start settings n.registry true with
    | .error f => return .ofStartFailure f
    | .ok (pool, outputs) =>
      let c : Courier := ⟨console, settings.transport, ← IO.mkRef pool, ← IO.mkRef .empty,
        ← Std.CancellationToken.new, ← IO.monoMsNow⟩
      c.report outputs
      n.notices.forM fun notice => discard <| c.act (.notify notice)
      let late := (← c.clock) + n.waitSeconds.toNat * 1000
      let workers ← pool.shards.mapM fun s => async (c.work s.index [])
      c.wait late
      discard <| c.act .shutDown
      c.ended.cancel
      workers.forM await
      discard <| c.act .join
      return .ofMetrics (← c.metrics.get)

partial def converse (console : Console) (h : Wire.Handler (List Log.Event))
    (socket : TCP.Socket.Client) (incoming : Wire.Incoming) : Async Unit := do
  match incoming.read (incoming.bytes.length + 1) with
  | (some [], _) => return
  | (some line, rest) =>
    if let some text := Wire.textOf? (Wire.chomp line) then
      let (log, response) := Wire.respond h [] text
      log.forM fun e => console.say e
      socket.send ⟨(Wire.lineOf response.line).toArray⟩
      converse console h socket rest
  | (none, _) =>
    match ← socket.recv? chunk with
    | none => converse console h socket incoming.finish
    | some bytes => converse console h socket (incoming.receive bytes.toList)

partial def accept (console : Console) (h : Wire.Handler (List Log.Event))
    (server : TCP.Socket.Server) : Async Unit := do
  let socket ← server.accept
  background do
    discard <| attempt (converse console h socket .empty)
    discard <| attempt socket.shutdown
  accept console h server

def listenAny : List SocketAddress → Async TCP.Socket.Server
  | [] => throw (.userError "no address")
  | place :: places => do
    let server ← TCP.Socket.Server.mk
    match ← attempt (do server.bind place; server.listen 128) with
    | .ok () => return server
    | .error reason =>
      if places.isEmpty then throw (.userError reason) else listenAny places

def interrupted : Async Unit := do
  let waiter ← Signal.Waiter.mk .sigint false
  discard <| await (← waiter.wait)

def drive (console : Console) (s : CommandLine.Serve) : Async CommandLine.Ending := do
  match CommandLine.listenFault? s.listen, Address.parse s.listen with
  | some fault, _ => return .ofComplaint (.ofListen s.listen fault)
  | none, .error refusal => return .ofComplaint (.ofListen s.listen refusal.message)
  | none, .ok a =>
    match ← attempt (resolve a >>= listenAny) with
    | .error reason => return .ofComplaint (.ofListen s.listen reason)
    | .ok server =>
      let place := toString (← server.getSockName)
      console.say ⟨.info, "session driver listening", [("local_addr", place)]⟩
      console.say ⟨.info, "session driver ready", [("address", place)]⟩
      Async.race (accept console (Wire.LoggingDriver.handler s.rejected) server) interrupted
      console.say ⟨.info, "shutting down", []⟩
      console.say ⟨.info, "session driver stopped", []⟩
      return .done

def run (words : List String) : Async CommandLine.Ending := do
  match CommandLine.parse words with
  | .error e => return .ofUsage e
  | .ok i =>
    let console ← Console.ofInvocation i
    match i.command with
    | .serve s => drive console s
    | .notify n => notify console n

end SessionCourier.Program

def main (words : List String) : IO UInt32 := do
  let ending ← (SessionCourier.Program.run words).block
  for line in ending.printed do
    IO.println line
  for line in ending.complaints ++ ending.advice do
    IO.eprintln line
  return ending.code
