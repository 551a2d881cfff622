import SessionCourier.Metrics.Store
import SessionCourier.Notice.Basic
import SessionCourier.Number.Duration

set_option autoImplicit false

namespace SessionCourier.Metrics

inductive Happening where
  | granted (resource : Resource)
  | revoked (resource : Resource)
  | delivered (method : Method) (latency : Duration)
  | failed (method : Method)
  | timedOut
  deriving DecidableEq, Repr

def byResource (name : String) (r : Resource) : Series := .of name [("type", r.label)]

def byMethod (name : String) (m : Method) : Series := .of name [("method", m.label)]

def grants (r : Resource) : Series := byResource "notifier.grants.total" r

def revokes (r : Resource) : Series := byResource "notifier.revokes.total" r

def deliveries (m : Method) : Series := byMethod "notifier.calls.delivered.total" m

def latencies (m : Method) : Series := byMethod "notifier.delivery.duration_ms" m

def failures (m : Method) : Series := byMethod "notifier.delivery.failures.total" m

def timeouts : Series := .of "notifier.sessions.timed_out.total" []

def pending : Series := .of "notifier.calls.pending" []

def Happening.updates : Happening → List Update
  | .granted r => [.increment (grants r) 1]
  | .revoked r => [.increment (revokes r) 1]
  | .delivered m latency =>
    [.increment (deliveries m) 1, .observe (latencies m) latency.milliseconds]
  | .failed m => [.increment (failures m) 1]
  | .timedOut => [.increment timeouts 1]

def Store.report (s : Store) (h : Happening) : Store := s.applyAll h.updates

end SessionCourier.Metrics
