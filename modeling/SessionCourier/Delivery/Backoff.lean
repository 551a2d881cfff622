import SessionCourier.Number.Power
import SessionCourier.Settings.Basic

set_option autoImplicit false

namespace SessionCourier

structure Policy where
  /-- Milliseconds to wait after so many failures in a row. -/
  delay : UInt32 → Nat
  maxRetries : UInt32

def Policy.isExhausted (p : Policy) (failures : UInt32) : Bool := p.maxRetries < failures

namespace Settings.Retry

/-- The power that belongs to the first failure is zero. -/
def exponent (failures : UInt32) : Nat := min (failures.toNat - 1) 0x7fffffff

def uncapped (r : Retry) (failures : UInt32) : Float :=
  r.initialIntervalMs.toFloat * Power.power r.backoffFactor (exponent failures)

def delay (r : Retry) (failures : UInt32) : UInt64 :=
  (Power.lesser (r.uncapped failures) r.maxIntervalMs.toFloat).toUInt64

def policy (r : Retry) : Policy := ⟨fun failures => (r.delay failures).toNat, r.maxRetries⟩

end Settings.Retry

end SessionCourier
