import SessionCourier.Settings.Loader
import SessionCourier.Text.Decimal
import SessionCourier.Text.Split

set_option autoImplicit false

namespace SessionCourier.CommandLine

structure Complaint where
  summary : String
  causes : List String
  deriving DecidableEq, Repr

namespace Complaint

def number (n : Nat) : String := "    " ++ Decimal.render n ++ ": "

def causeLines : List String → List String
  | [cause] => ["    " ++ cause]
  | causes => causes.mapIdx fun n cause => number n ++ cause

def lines (c : Complaint) : List String :=
  ["Error: " ++ c.summary] ++
    if c.causes.isEmpty then [] else ["", "Caused by:"] ++ causeLines c.causes

def ofLoadFailure (path : String) (failure : Settings.LoadFailure) : Complaint :=
  ⟨"failed to load settings from " ++ path, [failure.message, failure.cause]⟩

def ofListen (address cause : String) : Complaint := ⟨"failed to listen on " ++ address, [cause]⟩

end Complaint

/-- Why a text is no address to listen on; the host is not looked at. -/
def listenFault? (text : String) : Option String :=
  match Text.splitLast? ':' text.toList with
  | none => some "invalid socket address"
  | some (_, port) =>
    match Decimal.read (UInt16.size - 1) port with
    | .ok _ => none
    | .error _ => some "invalid port value"

end SessionCourier.CommandLine
