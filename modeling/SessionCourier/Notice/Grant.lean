import SessionCourier.Notice.Resource
import SessionCourier.Session.Address

set_option autoImplicit false

namespace SessionCourier

structure Grant where
  id : UInt32
  resource : Resource
  nodeName : String
  nodeAddress : Address
  appInfo : Option String
  deriving DecidableEq, Repr

namespace Grant

def encode (g : Grant) : Json.Value :=
  .object <|
    [("id", .integer g.id.toNat), ("type", g.resource.encode), ("nodeName", .string g.nodeName),
      ("nodeAddress", g.nodeAddress.encode)] ++
    match g.appInfo with
    | none => []
    | some info => [("appInfo", .string info)]

def record : Json.Record Grant :=
  (((((Json.Record.pure Grant.mk).and (.required "id" Json.word32)).and
    (.required "type" Resource.decoder)).and (.required "nodeName" Json.text)).and
    (.required "nodeAddress" Address.decoder)).and
    (.orElse "appInfo" (Json.option Json.text) none)

def decoder : Json.Decoder Grant := record.decoder "struct ResourceGrant"

end Grant

end SessionCourier
