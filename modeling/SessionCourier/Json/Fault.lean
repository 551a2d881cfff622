import SessionCourier.Number.Layout
import SessionCourier.Text.Quoted

set_option autoImplicit false

namespace SessionCourier.Json

inductive Found where
  | null
  | boolean (value : Bool)
  | integer (value : Int)
  | float (value : Float)
  | string (text : String)
  | list
  | object

def Found.name : Found → String
  | .null => "null"
  | .boolean b => "boolean `" ++ (if b then "true" else "false") ++ "`"
  | .integer n => "integer `" ++ toString n ++ "`"
  | .float x => "floating point `" ++ Layout.report.render x ++ "`"
  | .string s => "string " ++ Text.quoted s
  | .list => "sequence"
  | .object => "map"

inductive Cause where
  | endInList
  | endInObject
  | endInString
  | endInValue
  | expectedColon
  | expectedListEnd
  | expectedObjectEnd
  | expectedWord
  | expectedValue
  | badEscape
  | badNumber
  | numberOutOfRange
  | loneSurrogate
  | unfinishedSurrogate
  | controlCharacter
  | keyNotString
  | trailingComma
  | trailingCharacters
  | tooDeep
  | invalidType (found : Found) (expected : String)
  | invalidValue (found : Found) (expected : String)
  | invalidLength (length : Nat) (expected : String)
  | unknownVariant (name : String) (known : List String)
  | missingField (name : String)
  | duplicateField (name : String)
  | refused (reason : String)

/-- The text ends too early, it is no JSON, or it is JSON of another form than wanted. -/
inductive Category where
  | truncated
  | malformed
  | mismatched
  deriving DecidableEq, Repr

namespace Cause

def category : Cause → Category
  | endInList | endInObject | endInString | endInValue => .truncated
  | invalidType .. | invalidValue .. | invalidLength .. | unknownVariant .. | missingField ..
  | duplicateField .. | refused .. => .mismatched
  | _ => .malformed

def alternatives : List String → String
  | [] => "there are no variants"
  | [a] => "`" ++ a ++ "`"
  | [a, b] => "`" ++ a ++ "` or `" ++ b ++ "`"
  | names => "one of " ++ ", ".intercalate (names.map fun n => "`" ++ n ++ "`")

def message : Cause → String
  | endInList => "EOF while parsing a list"
  | endInObject => "EOF while parsing an object"
  | endInString => "EOF while parsing a string"
  | endInValue => "EOF while parsing a value"
  | expectedColon => "expected `:`"
  | expectedListEnd => "expected `,` or `]`"
  | expectedObjectEnd => "expected `,` or `\x7d`"
  | expectedWord => "expected ident"
  | expectedValue => "expected value"
  | badEscape => "invalid escape"
  | badNumber => "invalid number"
  | numberOutOfRange => "number out of range"
  | loneSurrogate => "lone leading surrogate in hex escape"
  | unfinishedSurrogate => "unexpected end of hex escape"
  | controlCharacter => "control character (\\u0000-\\u001F) found while parsing a string"
  | keyNotString => "key must be a string"
  | trailingComma => "trailing comma"
  | trailingCharacters => "trailing characters"
  | tooDeep => "recursion limit exceeded"
  | invalidType found expected => "invalid type: " ++ found.name ++ ", expected " ++ expected
  | invalidValue found expected => "invalid value: " ++ found.name ++ ", expected " ++ expected
  | invalidLength n expected => "invalid length " ++ toString n ++ ", expected " ++ expected
  | unknownVariant name known =>
    "unknown variant `" ++ name ++ "`, expected " ++ alternatives known
  | missingField name => "missing field `" ++ name ++ "`"
  | duplicateField name => "duplicate field `" ++ name ++ "`"
  | refused reason => reason

end Cause

/-- The text that is still unread at some place. -/
abbrev Rest := List Char

def Rest.bytes (rest : Rest) : Nat := rest.foldl (fun n c => n + c.utf8Size) 0

/-- A place of a text: `shift` more bytes are unread there than `rest` holds. -/
structure Place where
  rest : Rest
  shift : Int

def Place.unread (place : Place) : Nat := (Int.ofNat place.rest.bytes + place.shift).toNat

structure Fault where
  cause : Cause
  place : Option Place

namespace Fault

def unplaced (cause : Cause) : Fault := ⟨cause, none⟩

def before (cause : Cause) (rest : Rest) : Fault := ⟨cause, some ⟨rest, 0⟩⟩

/-- Seen at a character that is looked at or taken: its first byte counts as read. -/
def past (cause : Cause) (rest : Rest) : Fault := ⟨cause, some ⟨rest, -1⟩⟩

def atEnd (cause : Cause) : Fault := ⟨cause, some ⟨[], 0⟩⟩

/-- Gives a place to a fault that has none. -/
def placedAt (fault : Fault) (rest : Rest) : Fault :=
  match fault.place with
  | some _ => fault
  | none => .before fault.cause rest

def withoutPlace (fault : Fault) : Fault := ⟨fault.cause, none⟩

end Fault

structure Position where
  line : Nat
  column : Nat
  deriving DecidableEq, Repr

def Position.after : Nat → Position → List Char → Position
  | _, p, [] => p
  | offset, p, c :: cs =>
    if offset < c.utf8Size then { p with column := p.column + offset }
    else if c = '\n' then after (offset - c.utf8Size) ⟨p.line + 1, 0⟩ cs
    else after (offset - c.utf8Size) { p with column := p.column + c.utf8Size } cs

/-- A fault as it is reported: a fault without a place is reported without a position. -/
structure Report where
  cause : Cause
  position : Option Position

namespace Report

def message (r : Report) : String :=
  match r.position with
  | none => r.cause.message
  | some p => r.cause.message ++ " at line " ++ toString p.line ++ " column " ++ toString p.column

def category (r : Report) : Category := r.cause.category

end Report

def Fault.report (fault : Fault) (text : List Char) : Report :=
  ⟨fault.cause, fault.place.map fun p => Position.after (Rest.bytes text - p.unread) ⟨1, 0⟩ text⟩

end SessionCourier.Json
