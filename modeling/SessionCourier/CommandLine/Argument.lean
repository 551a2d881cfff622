import SessionCourier.Notice.Resource
import SessionCourier.Session.Address
import SessionCourier.Session.Handle
import SessionCourier.Text.Split

set_option autoImplicit false

namespace SessionCourier.CommandLine.Argument

inductive Refusal where
  | notOfForm (form text : String)
  | emptyHandle
  | emptyNode
  | badAddress (refusal : Address.Refusal)
  | unknownResource (unknown : Resource.Unknown)
  deriving DecidableEq, Repr

def Refusal.message : Refusal → String
  | .notOfForm form text => "expected " ++ form ++ ", got " ++ text
  | .emptyHandle => Handle.emptyMessage
  | .emptyNode => "node must not be empty"
  | .badAddress refusal => refusal.message
  | .unknownResource unknown => unknown.message

def handle (text : List Char) : Except Refusal Handle :=
  match Handle.ofText? (String.ofList text) with
  | some h => .ok h
  | none => .error .emptyHandle

def session (text : String) : Except Refusal (Handle × Address) :=
  match Text.splitFirst? '=' text.toList with
  | none => .error (.notOfForm "HANDLE=HOST:PORT" text)
  | some (before, after) => do
    let h ← handle before
    match Address.parse (String.ofList after) with
    | .ok a => .ok (h, a)
    | .error refusal => .error (.badAddress refusal)

def resource (text : String) : Except Refusal (Handle × Resource) :=
  match Text.splitLast? ':' text.toList with
  | none => .error (.notOfForm "HANDLE:TYPE" text)
  | some (before, after) => do
    let h ← handle before
    match Resource.parse (String.ofList after) with
    | .ok r => .ok (h, r)
    | .error unknown => .error (.unknownResource unknown)

/-- An empty node is refused before an empty handle is. -/
def deadNode (text : String) : Except Refusal (Handle × String) :=
  match Text.splitFirst? ':' text.toList with
  | none => .error (.notOfForm "HANDLE:NODE" text)
  | some (_, []) => .error .emptyNode
  | some (before, after) => do
    let h ← handle before
    return (h, String.ofList after)

end SessionCourier.CommandLine.Argument
