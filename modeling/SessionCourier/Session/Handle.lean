import SessionCourier.Json.Decoder

set_option autoImplicit false

namespace SessionCourier

structure Handle where
  text : String
  nonempty : text ≠ ""
  deriving DecidableEq

namespace Handle

def emptyMessage : String := "session handle must not be empty"

def ofText? (text : String) : Option Handle :=
  if h : text = "" then none else some ⟨text, h⟩

instance : ToString Handle := ⟨Handle.text⟩

def encode (h : Handle) : Json.Value := .string h.text

def decoder : Json.Decoder Handle :=
  Json.refine Json.text fun s =>
    match ofText? s with
    | some h => .ok h
    | none => .error emptyMessage

theorem ofText?_text (h : Handle) : ofText? h.text = some h := by
  simp [ofText?, h.nonempty]

end Handle

end SessionCourier
