import SessionCourier.Json.Decoder

set_option autoImplicit false

namespace SessionCourier

inductive Resource where
  | map
  | reduce
  | jobTracker
  | cpu
  deriving DecidableEq, Repr

namespace Resource

def label : Resource → String
  | .map => "map"
  | .reduce => "reduce"
  | .jobTracker => "job_tracker"
  | .cpu => "cpu"

def all : List Resource := [.map, .reduce, .jobTracker, .cpu]

/-- A word that names no kind, in small letters. -/
structure Unknown where
  word : String
  deriving DecidableEq, Repr

def Unknown.message (u : Unknown) : String := "unknown resource type: " ++ u.word

/-- Only ASCII letters have a small form here. -/
def lower (text : String) : String := String.ofList (text.toList.map Char.toLower)

def ofWord? (word : String) : Option Resource :=
  if word = "map" then some .map
  else if word = "reduce" then some .reduce
  else if word = "job_tracker" ∨ word = "jobtracker" then some .jobTracker
  else if word = "cpu" then some .cpu
  else none

def parse (text : String) : Except Unknown Resource :=
  match ofWord? (lower text) with
  | some r => .ok r
  | none => .error ⟨lower text⟩

def encode (r : Resource) : Json.Value := .string r.label

def decoder : Json.Decoder Resource := Json.oneOf (all.map fun r => (r.label, r))

end Resource

end SessionCourier
