import SessionCourier.Notice.Grant
import SessionCourier.Session.Handle

set_option autoImplicit false

namespace SessionCourier

inductive Method where
  | grantResource
  | revokeResource
  | processDeadNode
  deriving DecidableEq, Repr

namespace Method

def label : Method → String
  | .grantResource => "grantResource"
  | .revokeResource => "revokeResource"
  | .processDeadNode => "processDeadNode"

def all : List Method := [.grantResource, .revokeResource, .processDeadNode]

end Method

inductive Notice where
  | grant (handle : Handle) (grants : List Grant)
  | revoke (handle : Handle) (grants : List Grant) (force : Bool)
  | deadNode (handle : Handle) (node : String)
  deriving DecidableEq

namespace Notice

def handle : Notice → Handle
  | .grant h _ | .revoke h _ _ | .deadNode h _ => h

def method : Notice → Method
  | .grant .. => .grantResource
  | .revoke .. => .revokeResource
  | .deadNode .. => .processDeadNode

def params : Notice → Json.Value
  | .grant h gs => .object [("handle", h.encode), ("grants", .list (gs.map Grant.encode))]
  | .revoke h gs force =>
    .object [("handle", h.encode), ("grants", .list (gs.map Grant.encode)), ("force", .boolean force)]
  | .deadNode h node => .object [("handle", h.encode), ("node", .string node)]

def encode (n : Notice) : Json.Value :=
  .object [("method", .string n.method.label), ("params", n.params)]

def grantRecord : Json.Record Notice :=
  ((Json.Record.pure Notice.grant).and (.required "handle" Handle.decoder)).and
    (.required "grants" (Json.list Grant.decoder))

def revokeRecord : Json.Record Notice :=
  (((Json.Record.pure Notice.revoke).and (.required "handle" Handle.decoder)).and
    (.required "grants" (Json.list Grant.decoder))).and (.required "force" Json.boolean)

def deadNodeRecord : Json.Record Notice :=
  ((Json.Record.pure Notice.deadNode).and (.required "handle" Handle.decoder)).and
    (.required "node" Json.text)

def bodyDecoder : Method → Json.Decoder Notice
  | .grantResource => grantRecord.body "struct variant NotificationCall::GrantResource"
  | .revokeResource => revokeRecord.body "struct variant NotificationCall::RevokeResource"
  | .processDeadNode => deadNodeRecord.body "struct variant NotificationCall::DeadNode"

def union : Json.Union Notice where
  name := "NotificationCall"
  tag := "method"
  content := "params"
  variants := Method.all.map fun m => (m.label, bodyDecoder m)

def decoder : Json.Decoder Notice := union.decoder

end Notice

end SessionCourier
