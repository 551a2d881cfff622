import SessionCourier.Rehearsal.World

set_option autoImplicit false

namespace SessionCourier.Rehearsal

inductive Outcome where
  | deliver
  | fail (failure : Failure)
  | wait (ms : Nat) (next : Outcome)
  deriving DecidableEq, Repr

namespace Outcome

def reset : Outcome := .fail (.io "connection reset")

def lag : Outcome → Nat
  | .wait ms next => ms + next.lag
  | _ => 0

def verdict : Outcome → Except Failure Unit
  | .deliver => .ok ()
  | .fail f => .error f
  | .wait _ next => next.verdict

end Outcome

structure Driver where
  script : List Outcome
  /-- What happens when the script is used up. -/
  failing : Bool
  /-- Addresses at which nothing listens. -/
  refused : List Address
  delivered : List Notice
  attempts : Nat
  connects : Nat
  closes : Nat

namespace Driver

def ofScript (script : List Outcome) (failing : Bool) : Driver :=
  ⟨script, failing, [], [], 0, 0, 0⟩

def refuse (d : Driver) (a : Address) : Driver := { d with refused := a :: d.refused }

def connect (d : Driver) (a : Address) : Driver × Except Failure Unit :=
  if a ∈ d.refused then (d, .error (.connect a.render "connection refused"))
  else ({ d with connects := d.connects + 1 }, .ok ())

def rest (d : Driver) : Outcome := if d.failing then .reset else .deliver

def invoke (d : Driver) : Driver × Outcome :=
  match d.script with
  | outcome :: script => ({ d with attempts := d.attempts + 1, script := script }, outcome)
  | [] => ({ d with attempts := d.attempts + 1 }, d.rest)

def accept (d : Driver) (n : Notice) : Driver := { d with delivered := d.delivered ++ [n] }

def release (d : Driver) : Driver := { d with closes := d.closes + 1 }

def deliveredFor (d : Driver) (h : Handle) : List Notice := d.delivered.filter (·.handle = h)

def world : World Driver where
  connect := fun d a =>
    let (d, result) := d.connect a
    (d, 0, result)
  invoke := fun d _ _ =>
    let (d, outcome) := d.invoke
    (d, outcome.lag, outcome.verdict)
  accept := fun d _ n => d.accept n
  release := fun d _ => (d.release, 0)

end Driver

/-- A scripted driver, and for each link that was opened to it whether it is closed by now. -/
structure Exchange where
  driver : Driver
  closed : List Bool
  clock : Nat

namespace Exchange

def connect (x : Exchange) (a : Address) : Exchange × Except Failure Nat :=
  match x.driver.connect a with
  | (d, .ok ()) => ({ x with driver := d, closed := x.closed ++ [false] }, .ok x.closed.length)
  | (d, .error f) => ({ x with driver := d }, .error f)

def invoke (x : Exchange) (link : Nat) (n : Notice) : Exchange × Except Failure Unit :=
  if x.closed[link]?.getD true then (x, .error .closed)
  else
    let (d, outcome) := x.driver.invoke
    let d := if outcome.verdict.isOk then d.accept n else d
    ({ x with driver := d, clock := x.clock + outcome.lag }, outcome.verdict)

def close (x : Exchange) (link : Nat) : Exchange :=
  if x.closed[link]?.getD true then x
  else { x with driver := x.driver.release, closed := x.closed.set link true }

end Exchange

abbrev Drivers := List (Address × Driver)

namespace Drivers

def get (ds : Drivers) (a : Address) : Driver := (List.lookup a ds).getD (.ofScript [] false)

def set (ds : Drivers) (a : Address) (d : Driver) : Drivers :=
  match ds with
  | [] => [(a, d)]
  | (b, e) :: rest => if b = a then (b, d) :: rest else (b, e) :: set rest a d

def world : World Drivers where
  connect := fun ds a =>
    let (d, result) := (get ds a).connect a
    (set ds a d, 0, result)
  invoke := fun ds a _ =>
    let (d, outcome) := (get ds a).invoke
    (set ds a d, outcome.lag, outcome.verdict)
  accept := fun ds a n => set ds a ((get ds a).accept n)
  release := fun ds a => (set ds a (get ds a).release, 0)

end Drivers

end SessionCourier.Rehearsal
