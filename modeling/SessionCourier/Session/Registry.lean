import SessionCourier.Session.Address
import SessionCourier.Session.Handle

set_option autoImplicit false

namespace SessionCourier

structure Registry where
  entries : List (Handle × Address)

/-- A handle that no live session has. -/
structure UnknownSession where
  handle : Handle

def UnknownSession.message (e : UnknownSession) : String :=
  "invalid session handle: " ++ e.handle.text

namespace Registry

def empty : Registry := ⟨[]⟩

def address? (r : Registry) (h : Handle) : Option Address := r.entries.lookup h

def lookup (r : Registry) (h : Handle) : Except UnknownSession Address :=
  match r.address? h with
  | some a => .ok a
  | none => .error ⟨h⟩

def erase (r : Registry) (h : Handle) : Registry := ⟨r.entries.filter (·.1 ≠ h)⟩

def register (r : Registry) (h : Handle) (a : Address) : Registry :=
  ⟨(h, a) :: (r.erase h).entries⟩

def contains (r : Registry) (h : Handle) : Bool := (r.address? h).isSome

def size (r : Registry) : Nat := r.entries.length

end Registry

end SessionCourier
