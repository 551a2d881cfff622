import SessionCourier.Delivery.Outbox.Step
import SessionCourier.Rehearsal.Driver

set_option autoImplicit false

namespace SessionCourier.Rehearsal

structure Bench where
  policy : Policy
  outbox : Outbox
  driver : Driver
  clock : Nat
  awaited : Option Awaited
  tasks : Nat
  said : List Outbox.Output

namespace Bench

def create (policy : Policy) (outbox : Outbox) (driver : Driver) : Bench :=
  ⟨policy, outbox, driver, 0, none, 0, []⟩

def act (b : Bench) (a : Outbox.Action) : Bench :=
  match Outbox.step b.policy b.clock b.outbox a with
  | none => b
  | some (o, outputs) =>
    let (d, awaited) := Driver.world.askAll b.driver b.clock o.address outputs
    { b with outbox := o, driver := d, awaited := awaited <|> b.awaited, said := b.said ++ outputs }

def receive (b : Bench) (w : Awaited) : Bench :=
  let b := { b with
    clock := max b.clock w.due
    awaited := none
    driver := Driver.world.arrive b.driver b.outbox.address w }
  b.act (.answer w.answer)

def next? (b : Bench) (limit : Option Nat) : Option Bench :=
  match b.awaited with
  | some w => if limit.all (w.due ≤ ·) then some (b.receive w) else none
  | none =>
    if b.outbox.holder.isNone && !b.outbox.waiting.isEmpty then some (b.act .resume) else none

/-- A bound on what can still happen of its own accord: each task ends with its first failure, and
each other attempt takes a notice out of the queue. -/
def remaining (b : Bench) : Nat := 3 * b.outbox.queue.length + 4 * b.outbox.waiting.length + 8

def runFor (limit : Option Nat) (stop : Bench → Bool) : Nat → Bench → Bench
  | 0, b => b
  | n + 1, b =>
    if stop b then b
    else
      match b.next? limit with
      | none => b
      | some b' => runFor limit stop n b'

def run (b : Bench) (limit : Option Nat) (stop : Bench → Bool) : Bench :=
  runFor limit stop b.remaining b

def never (_ : Bench) : Bool := false

def result? (b : Bench) (task : Nat) : Option Bool :=
  b.said.findSome? fun
    | .flushed t alive => if t = task then some alive else none
    | .shut t => if t = task then some true else none
    | _ => none

def isOver (task : Nat) (b : Bench) : Bool := (b.result? task).isSome

def start (b : Bench) (job : Outbox.Job) : Bench :=
  { b.act (.call b.tasks job) with tasks := b.tasks + 1 }.run (some b.clock) never

def finish (b : Bench) (job : Outbox.Job) : Bench :=
  { b.act (.call b.tasks job) with tasks := b.tasks + 1 }.run none (isOver b.tasks)

def join (b : Bench) : Bench := b.run none never

def sleep (b : Bench) (ms : Nat) : Bench :=
  { b.run (some (b.clock + ms)) never with clock := b.clock + ms }

end Bench

end SessionCourier.Rehearsal
