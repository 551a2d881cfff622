import SessionCourier.Json.Printer
import SessionCourier.Notice.Basic

set_option autoImplicit false

namespace SessionCourier.Wire

structure Request where
  id : UInt64
  method : String
  params : Json.Value

namespace Request

def ofNotice (id : UInt64) (n : Notice) : Request :=
  ⟨id, n.method.label, n.params.canonical⟩

def encode (r : Request) : Json.Value :=
  .object [("id", .integer r.id.toNat), ("method", .string r.method), ("params", r.params)]

def line (r : Request) : String := r.encode.compact

def record : Json.Record Request :=
  (((Json.Record.pure Request.mk).and (.required "id" (Json.word64 "u64"))).and
    (.required "method" Json.text)).and (.orElse "params" Json.anyValue .null)

def decoder : Json.Decoder Request := record.decoder "struct RpcRequest"

def ofLine (text : String) : Except Json.Report Request := Json.decodeText decoder text

def notice (r : Request) : Except Json.Report Notice :=
  Json.decodeValue Notice.decoder (.object [("method", .string r.method), ("params", r.params)])

end Request

end SessionCourier.Wire
