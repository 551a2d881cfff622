import SessionCourier.Text.Blank
import SessionCourier.Wire.Line
import SessionCourier.Wire.Request
import SessionCourier.Wire.Response

set_option autoImplicit false

/-!
# Links

A link is the courier's end of a connection to a driver. It numbers its requests from one, and sends
the next only when the reply to the last has been read. A reply is one line, of bounded length, that
answers the number of its request.
-/

namespace SessionCourier.Wire

def maxReply : Nat := 65536

structure Link where
  isOpen : Bool
  sent : UInt64
  /-- How long a reply may take. -/
  patience : Duration
  deriving DecidableEq, Repr

structure Invoked where
  link : Link
  incoming : Incoming
  request : Option String
  result : Except Failure Unit

def interpret (id : UInt64) (reply : List UInt8) : Except Failure Unit :=
  match textOf? reply with
  | none => .error (.io "stream did not contain valid UTF-8")
  | some text =>
    if text = "" then .error .closed
    else if maxReply < reply.length then
      .error (.protocol ("reply exceeds " ++ Decimal.render maxReply ++ " bytes"))
    else
      match Response.ofLine (Text.trimEnd text) with
      | .error report => .error (.protocol report.message)
      | .ok response => response.verdict id

namespace Link

def fresh (patience : Duration) : Link := ⟨true, 0, patience⟩

def close (l : Link) : Link := { l with isOpen := false }

def request (l : Link) (n : Notice) : Request := .ofNotice (l.sent + 1) n

def invoke (l : Link) (n : Notice) (incoming : Incoming) : Invoked :=
  if l.isOpen then
    let next := { l with sent := l.sent + 1 }
    let line := some ((l.request n).line ++ "\n")
    match incoming.read (maxReply + 1) with
    | (none, rest) => ⟨next, rest, line, .error (.timeout l.patience)⟩
    | (some reply, rest) => ⟨next, rest, line, interpret next.sent reply⟩
  else ⟨l, incoming, none, .error .closed⟩

end Link

end SessionCourier.Wire
