import SessionCourier.Number.Duration

set_option autoImplicit false

namespace SessionCourier

inductive Failure where
  | connect (address reason : String)
  | timeout (after : Duration)
  | io (reason : String)
  | protocol (reason : String)
  | rejected (code message : String)
  | closed
  deriving DecidableEq, Repr

namespace Failure

def message : Failure → String
  | .connect address reason => "connect to " ++ address ++ " failed: " ++ reason
  | .timeout after => "timeout after " ++ after.render
  | .io reason => "io error: " ++ reason
  | .protocol reason => "protocol error: " ++ reason
  | .rejected code message => "driver rejected call (" ++ code ++ "): " ++ message
  | .closed => "connection closed"

def kind : Failure → String
  | .connect .. => "connect"
  | .timeout _ => "timeout"
  | .io _ => "io"
  | .protocol _ => "protocol"
  | .rejected .. => "rejected"
  | .closed => "closed"

def isUnreachable : Failure → Bool
  | .rejected .. => false
  | _ => true

end Failure

structure ManagerFailure where
  reason : String
  deriving DecidableEq, Repr

def ManagerFailure.message (e : ManagerFailure) : String :=
  "cluster manager unavailable: " ++ e.reason

end SessionCourier
