import SessionCourier.Wire.Line
import SessionCourier.Wire.Request
import SessionCourier.Wire.Response

set_option autoImplicit false

namespace SessionCourier.Wire

structure Handler (σ : Type) where
  handle : σ → Notice → σ × Except Rejection Unit

variable {σ : Type}

def Response.ofResult (id : UInt64) : Except Rejection Unit → Response
  | .ok () => .accepted id
  | .error r => .rejected (some id) r.code r.message

def respond (h : Handler σ) (s : σ) (line : String) : σ × Response :=
  match Request.ofLine line with
  | .error report => (s, .rejected none parseError report.message)
  | .ok request =>
    match request.notice with
    | .error report =>
      (s, .rejected (some request.id) invalidRequest (request.method ++ ": " ++ report.message))
    | .ok notice =>
      let (s, result) := h.handle s notice
      (s, .ofResult request.id result)

def respondAll (h : Handler σ) (s : σ) : List String → σ × List Response
  | [] => (s, [])
  | line :: lines =>
    let (s, response) := respond h s line
    let (s, responses) := respondAll h s lines
    (s, response :: responses)

/-- The lines of a connection, up to the first that is no text. -/
def textLines (bytes : List UInt8) : List String :=
  (((splitLines bytes).map fun line => textOf? (chomp line)).takeWhile Option.isSome).filterMap id

/-- Serves a connection until it ends. -/
def serve (h : Handler σ) (s : σ) (bytes : List UInt8) : σ × List Response :=
  respondAll h s (textLines bytes)

end SessionCourier.Wire
