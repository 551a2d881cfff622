import SessionCourier.Json.Decoder

set_option autoImplicit false

namespace SessionCourier

inductive Status where
  | running
  | successful
  | failed
  | killed
  | timedOut
  deriving DecidableEq, Repr

namespace Status

def label : Status → String
  | .running => "RUNNING"
  | .successful => "SUCCESSFUL"
  | .failed => "FAILED"
  | .killed => "KILLED"
  | .timedOut => "TIMED_OUT"

def all : List Status := [.running, .successful, .failed, .killed, .timedOut]

def encode (s : Status) : Json.Value := .string s.label

def decoder : Json.Decoder Status := Json.oneOf (all.map fun s => (s.label, s))

end Status

end SessionCourier
