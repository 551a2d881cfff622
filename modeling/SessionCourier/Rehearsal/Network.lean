import SessionCourier.Rehearsal.World
import SessionCourier.Wire.Link
import SessionCourier.Wire.LoggingDriver

set_option autoImplicit false

namespace SessionCourier.Rehearsal

structure Network where
  up : Bool
  /-- Where drivers listen, and the sessions that they reject. -/
  drivers : List (Address × List Handle)

namespace Network

def downReason : String := "Network is unreachable (os error 101)"

def refusedReason : String := "Connection refused (os error 111)"

def connect (n : Network) (a : Address) : Except Failure (List Handle) :=
  if !n.up then .error (.connect a.render downReason)
  else
    match n.drivers.lookup a with
    | some rejected => .ok rejected
    | none => .error (.connect a.render refusedReason)

def reply (rejected : List Handle) (line : String) : List UInt8 :=
  (Wire.serve (Wire.LoggingDriver.handler rejected) [] (Wire.bytesOf line)).2.flatMap fun response =>
    Wire.lineOf response.line

def deliver (rejected : List Handle) (n : Notice) : Except Failure Unit :=
  let link := Wire.Link.fresh ⟨0⟩
  (link.invoke n ⟨reply rejected ((link.request n).line ++ "\n"), false⟩).result

def world (network : Network) : World Unit where
  connect := fun s a => (s, 0, (network.connect a).map fun _ => ())
  invoke := fun s a n => (s, 0, network.connect a >>= fun rejected => deliver rejected n)
  accept := fun s _ _ => s
  release := fun s _ => (s, 0)

end Network

end SessionCourier.Rehearsal
