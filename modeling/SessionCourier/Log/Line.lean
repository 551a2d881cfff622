import SessionCourier.Json.Printer
import SessionCourier.Log.Event

set_option autoImplicit false

namespace SessionCourier.Log

/-- How wide levels are written, so that messages stand below each other. -/
def levelWidth : Nat := 5

def Level.mark (l : Level) : String :=
  let text := l.label.toUpper
  String.ofList (List.replicate (levelWidth - text.length) ' ') ++ text

namespace Event

def plainLine (time : String) (e : Event) : String :=
  " ".intercalate (time :: e.level.mark :: e.message :: e.fields.map fun f => f.1 ++ "=" ++ f.2)

def encode (time : String) (e : Event) : Json.Value :=
  .object [("timestamp", .string time), ("level", .string e.level.label.toUpper),
    ("fields", .object (("message", .string e.message) :: e.fields.map fun f => (f.1, .string f.2)))]

def jsonLine (time : String) (e : Event) : String := (e.encode time).compact

end Event

end SessionCourier.Log
