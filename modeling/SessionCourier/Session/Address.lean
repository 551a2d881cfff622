import SessionCourier.Json.Decoder
import SessionCourier.Text.Decimal
import SessionCourier.Text.Split

set_option autoImplicit false

namespace SessionCourier

structure Address where
  host : String
  port : UInt16
  deriving DecidableEq, Repr, Inhabited

namespace Address

def render (a : Address) : String := a.host ++ ":" ++ Decimal.render a.port.toNat

instance : ToString Address := ⟨render⟩

inductive Refusal where
  | noColon (text : String)
  | noHost (text : String)
  | badPort (text : String) (refusal : Decimal.Refusal)
  deriving DecidableEq, Repr

def Refusal.message : Refusal → String
  | .noColon text => "expected host:port, got " ++ Text.quoted text
  | .noHost text => "missing host in " ++ Text.quoted text
  | .badPort text refusal => "invalid port in " ++ Text.quoted text ++ ": " ++ refusal.message

def parse (text : String) : Except Refusal Address :=
  match Text.splitLast? ':' text.toList with
  | none => .error (.noColon text)
  | some ([], _) => .error (.noHost text)
  | some (host, port) =>
    match Decimal.read (UInt16.size - 1) port with
    | .ok n => .ok ⟨String.ofList host, UInt16.ofNat n⟩
    | .error refusal => .error (.badPort text refusal)

def encode (a : Address) : Json.Value :=
  .object [("host", .string a.host), ("port", .integer a.port.toNat)]

def record : Json.Record Address :=
  ((Json.Record.pure Address.mk).and (.required "host" Json.text)).and
    (.required "port" Json.word16)

def decoder : Json.Decoder Address := record.decoder "struct HostPort"

end Address

end SessionCourier
