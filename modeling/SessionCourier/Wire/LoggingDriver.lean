import SessionCourier.Log.Event
import SessionCourier.Wire.Service

set_option autoImplicit false

namespace SessionCourier.Wire.LoggingDriver

def unknownSession (h : Handle) : Rejection := ⟨"UNKNOWN_SESSION", "no session " ++ h.text⟩

def sessionField (h : Handle) : String × String := ("session_id", h.text)

def rejectedEvent (n : Notice) : Log.Event where
  level := .info
  message := "rejecting call"
  fields := [sessionField n.handle, ("method", n.method.label)]

def grantedEvent (h : Handle) (g : Grant) : Log.Event where
  level := .info
  message := "resource granted"
  fields := [sessionField h, ("grant_id", Decimal.render g.id.toNat), ("resource", g.resource.label),
    ("node", g.nodeName)]

def renderIds (ids : List UInt32) : String :=
  "[" ++ ", ".intercalate (ids.map fun id => Decimal.render id.toNat) ++ "]"

def renderFlag (b : Bool) : String := if b then "true" else "false"

def events : Notice → List Log.Event
  | .grant h gs => gs.map (grantedEvent h)
  | .revoke h gs force =>
    [⟨.info, "resources revoked",
      [sessionField h, ("ids", renderIds (gs.map (·.id))), ("force", renderFlag force)]⟩]
  | .deadNode h node => [⟨.info, "node reported dead", [sessionField h, ("node", node)]⟩]

def handler (rejected : List Handle) : Handler (List Log.Event) where
  handle log n :=
    if n.handle ∈ rejected then (log ++ [rejectedEvent n], .error (unknownSession n.handle))
    else (log ++ events n, .ok ())

end SessionCourier.Wire.LoggingDriver
