import SessionCourier.Json.Numeral
import SessionCourier.Json.Value

set_option autoImplicit false

/-!
# What stands in a text

A node is what was read at one place of a text, together with the places that a fault may name. A
text that breaks off or breaks the grammar still has nodes up to there: reading it as some type may
meet another fault first. A break is named differently by a reader that wants the value and by one
that skips it.
-/

namespace SessionCourier.Json

structure Break where
  wanted : Fault
  skipped : Fault

def Break.both (fault : Fault) : Break := ⟨fault, fault⟩

/-- A key of an object; its text may hold half a surrogate pair, which only a skipping reader passes. -/
structure Key where
  text : Except Fault String
  after : Rest

inductive Node where
  | null (start after : Rest)
  | boolean (value : Bool) (start after : Rest)
  | number (value : Except Fault Number) (start after : Rest)
  | string (text : Except Fault String) (after : Rest)
  /-- `wanted` and `skipped` tell what follows the items: the place after the end, or a fault. -/
  | list (start : Rest) (items : List Node) (wanted skipped : Except Fault Rest)
  | object (start : Rest) (members : List (Key × Node)) (wanted skipped : Except Fault Rest)
  /-- A list or object beyond the depth that is read. -/
  | deep (start : Rest) (skipped : Except Fault Rest)
  /-- Nothing that can be read stands here. -/
  | broken (start : Rest) (fault : Break)
  | absent (fault : Fault)

namespace Node

def skipped : Node → Except Fault Rest
  | .null _ after | .boolean _ _ after | .number _ _ after | .string _ after => .ok after
  | .list _ _ _ skipped | .object _ _ _ skipped | .deep _ skipped => skipped
  | .broken _ b => .error b.skipped
  | .absent f => .error f

/-- The place after a node that was read to its end. -/
def after (n : Node) : Rest :=
  match n.skipped with
  | .ok rest => rest
  | .error _ => []

end Node

namespace Value

mutual

def toNode : Value → Node
  | .null => .null [] []
  | .boolean b => .boolean b [] []
  | .integer n => .number (.ok (.integer n)) [] []
  | .float x => .number (.ok (.float x)) [] []
  | .string s => .string (.ok s) []
  | .list items => .list [] (itemNodes items) (.ok []) (.ok [])
  | .object members => .object [] (memberNodes members) (.ok []) (.ok [])

def itemNodes : List Value → List Node
  | [] => []
  | v :: vs => toNode v :: itemNodes vs

def memberNodes : List (String × Value) → List (Key × Node)
  | [] => []
  | (k, v) :: ms => (⟨.ok k, []⟩, toNode v) :: memberNodes ms

end

end Value

namespace Node

mutual

/-- The value of a node, with members as they are written, or the first fault in it. -/
def value : Node → Except Fault Value
  | .null .. => .ok .null
  | .boolean b .. => .ok (.boolean b)
  | .number (.ok (.integer n)) .. => .ok (.integer n)
  | .number (.ok (.float x)) .. => .ok (.float x)
  | .number (.error f) .. => .error f
  | .string (.ok s) _ => .ok (.string s)
  | .string (.error f) _ => .error f
  | .list _ items wanted _ =>
    match itemValues items, wanted with
    | .error f, _ => .error f
    | .ok _, .error f => .error f
    | .ok vs, .ok _ => .ok (.list vs)
  | .object _ members wanted _ =>
    match memberValues members, wanted with
    | .error f, _ => .error f
    | .ok _, .error f => .error f
    | .ok ms, .ok _ => .ok (.object ms)
  | .deep start _ => .error (.past .tooDeep start)
  | .broken _ b => .error b.wanted
  | .absent f => .error f

def itemValues : List Node → Except Fault (List Value)
  | [] => .ok []
  | n :: ns =>
    match value n with
    | .error f => .error f
    | .ok v => (itemValues ns).map (v :: ·)

def memberValues : List (Key × Node) → Except Fault (List (String × Value))
  | [] => .ok []
  | (⟨.error f, _⟩, _) :: _ => .error f
  | (⟨.ok k, _⟩, n) :: ms =>
    match value n with
    | .error f => .error f
    | .ok v => (memberValues ms).map ((k, v) :: ·)

end

end Node

end SessionCourier.Json
