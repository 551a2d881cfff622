import SessionCourier.Delivery.Failure
import SessionCourier.Json.Decoder
import SessionCourier.Json.Printer

set_option autoImplicit false

namespace SessionCourier.Wire

structure Rejection where
  code : String
  message : String
  deriving DecidableEq, Repr

structure Response where
  id : Option UInt64
  success : Bool
  error : Option Rejection
  deriving DecidableEq, Repr

def parseError : String := "PARSE_ERROR"

def invalidRequest : String := "INVALID_REQUEST"

def unknownError : String := "UNKNOWN_ERROR"

namespace Rejection

def encode (r : Rejection) : Json.Value :=
  .object [("code", .string r.code), ("message", .string r.message)]

def record : Json.Record Rejection :=
  ((Json.Record.pure Rejection.mk).and (.required "code" Json.text)).and
    (.required "message" Json.text)

def decoder : Json.Decoder Rejection := record.decoder "struct RpcError"

end Rejection

namespace Response

def accepted (id : UInt64) : Response := ⟨some id, true, none⟩

def rejected (id : Option UInt64) (code message : String) : Response :=
  ⟨id, false, some ⟨code, message⟩⟩

def encode (r : Response) : Json.Value :=
  .object <|
    [("id", .ofOption (fun id => .integer (UInt64.toNat id)) r.id), ("success", .boolean r.success)] ++
    match r.error with
    | none => []
    | some e => [("error", e.encode)]

def line (r : Response) : String := r.encode.compact

def record : Json.Record Response :=
  (((Json.Record.pure Response.mk).and (.nullable "id" (Json.word64 "u64"))).and
    (.required "success" Json.boolean)).and (.orElse "error" (Json.option Rejection.decoder) none)

def decoder : Json.Decoder Response := record.decoder "struct RpcResponse"

def ofLine (text : String) : Except Json.Report Response := Json.decodeText decoder text

def renderId : Option UInt64 → String
  | none => "None"
  | some id => "Some(" ++ Decimal.render id.toNat ++ ")"

def verdict (r : Response) (expected : UInt64) : Except Failure Unit :=
  if r.id = some expected then
    if r.success then .ok ()
    else
      match r.error with
      | some e => .error (.rejected e.code e.message)
      | none => .error (.rejected unknownError "")
  else
    .error (.protocol ("response id " ++ renderId r.id ++ " does not match request id " ++
      Decimal.render expected.toNat))

end Response

end SessionCourier.Wire
