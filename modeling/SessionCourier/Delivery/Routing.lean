import SessionCourier.Hash.Sip
import SessionCourier.Session.Handle

set_option autoImplicit false

namespace SessionCourier

/-- The text of a handle, ended by a byte that no text holds. -/
def Handle.hash (h : Handle) : UInt64 := Hash.sip (h.text.toUTF8.toList ++ [0xff])

/-- No shards count as one. -/
def route (shards : Nat) (h : Handle) : Nat := h.hash.toNat % max shards 1

theorem route_lt (shards : Nat) (h : Handle) : route shards h < max shards 1 :=
  Nat.mod_lt _ (by omega)

end SessionCourier
