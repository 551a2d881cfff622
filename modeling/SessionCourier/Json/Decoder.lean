import SessionCourier.Json.Reader

set_option autoImplicit false

namespace SessionCourier.Json

inductive Source where
  | text
  | value
  | buffer
  deriving DecidableEq

abbrev Decoder (α : Type) := Source → Node → Except Fault α

def leaveList (rest : Rest) : Rest :=
  match skipBlank rest with
  | ']' :: cs => cs
  | ',' :: cs => skipBlank cs
  | cs => cs

def leaveObject (rest : Rest) : Rest :=
  match skipBlank rest with
  | '\x7d' :: cs => cs
  | cs => cs

/-- A list of which everything wanted was read ends here, or has more than was wanted. -/
def endList (rest : Rest) : Except Fault Unit :=
  match skipBlank rest with
  | [] => .error (.atEnd .endInList)
  | ']' :: _ => .ok ()
  | ',' :: cs =>
    match skipBlank cs with
    | ']' :: more => .error (.past .trailingComma (']' :: more))
    | here => .error (.past .trailingCharacters here)
  | here => .error (.past .trailingCharacters here)

def countedElements (n : Nat) : String :=
  toString n ++ (if n = 1 then " element" else " elements") ++ " in sequence"

/-- The end of a list of which the first `taken` items were wanted; `rest` is the place after them. -/
def closeList (source : Source) (taken : Nat) (items : List Node) (rest : Rest) :
    Except Fault Unit :=
  match source with
  | .text => endList rest
  | .value =>
    if items.length ≤ taken then .ok ()
    else .error (.unplaced (.invalidLength items.length "fewer elements in array"))
  | .buffer =>
    if items.length ≤ taken then .ok ()
    else .error (.unplaced (.invalidLength items.length (countedElements taken)))

def Number.found : Number → Found
  | .integer n => .integer n
  | .float x => .float x

def mismatch (expected : String) : Node → Fault
  | .null _ after => .before (.invalidType .null expected) after
  | .boolean b _ after => .before (.invalidType (.boolean b) expected) after
  | .number (.ok n) _ after => .before (.invalidType n.found expected) after
  | .number (.error f) .. => f
  | .string (.ok s) after => .before (.invalidType (.string s) expected) after
  | .string (.error f) _ => f
  | .list start .. => .before (.invalidType .list expected) start
  | .object start .. => .before (.invalidType .object expected) start
  | .deep ('[' :: cs) _ => .before (.invalidType .list expected) ('[' :: cs)
  | .deep start _ => .before (.invalidType .object expected) start
  | .broken _ b => b.wanted
  | .absent f => f

def text : Decoder String := fun _ n =>
  match n with
  | .string (.ok s) _ => .ok s
  | n => .error (mismatch "a string" n)

def boolean : Decoder Bool := fun _ n =>
  match n with
  | .boolean b .. => .ok b
  | n => .error (mismatch "a boolean" n)

def natural (bound : Nat) (expected : String) : Decoder Nat := fun _ n =>
  match n with
  | .number (.ok (.integer i)) _ after =>
    if 0 ≤ i ∧ i ≤ Int.ofNat bound then .ok i.toNat
    else .error (.before (.invalidValue (.integer i) expected) after)
  | n => .error (mismatch expected n)

def word64 (expected : String) : Decoder UInt64 := fun s n =>
  (natural (UInt64.size - 1) expected s n).map UInt64.ofNat

def word32 : Decoder UInt32 := fun s n => (natural (UInt32.size - 1) "u32" s n).map UInt32.ofNat

def word16 : Decoder UInt16 := fun s n => (natural (UInt16.size - 1) "u16" s n).map UInt16.ofNat

def ofInteger (i : Int) : Float :=
  if i < 0 then -(UInt64.ofNat i.natAbs).toFloat else (UInt64.ofNat i.natAbs).toFloat

def float : Decoder Float := fun _ n =>
  match n with
  | .number (.ok (.float x)) .. => .ok x
  | .number (.ok (.integer i)) .. => .ok (ofInteger i)
  | n => .error (mismatch "f64" n)

def option {α : Type} (d : Decoder α) : Decoder (Option α) := fun s n =>
  match n with
  | .null .. => .ok none
  | n => (d s n).map some

/-- Any value; an object keeps its members in order of their keys, the last of several with one key. -/
def anyValue : Decoder Value := fun _ n => n.value.map Value.canonical

def refine {α β : Type} (d : Decoder α) (check : α → Except String β) : Decoder β := fun s n =>
  match d s n with
  | .error f => .error f
  | .ok a =>
    match check a with
    | .ok b => .ok b
    | .error reason => .error (.unplaced (.refused reason))

def listItems {α : Type} (d : Decoder α) (source : Source) : List Node → Except Fault (List α)
  | [] => .ok []
  | n :: ns =>
    match d source n with
    | .error f => .error (f.placedAt (leaveList n.after))
    | .ok a => (listItems d source ns).map (a :: ·)

def list {α : Type} (d : Decoder α) : Decoder (List α) := fun s n =>
  match n with
  | .list _ items wanted _ =>
    match listItems d s items, wanted with
    | .error f, _ => .error f
    | .ok _, .error f => .error f
    | .ok as, .ok _ => .ok as
  | .deep ('[' :: cs) _ => .error (.past .tooDeep ('[' :: cs))
  | n => .error (mismatch "a sequence" n)

def findVariant {α : Type} (known : List (String × α)) (name : String) (after : Rest) :
    Except Fault α :=
  match known.lookup name with
  | some a => .ok a
  | none => .error (.before (.unknownVariant name (known.map (·.1))) after)

/-- One of a fixed set of names, as a string. -/
def plainName {α : Type} (known : List (String × α)) : Decoder α := fun _ n =>
  match n with
  | .string (.ok name) after => findVariant known name after
  | n => .error (mismatch "variant identifier" n)

/-- Why an object that opens at `start` and has no members has no key either. -/
def noKey (start : Rest) : Fault :=
  match skipBlank (start.drop 1) with
  | [] => .atEnd .endInObject
  | here => .past .keyNotString here

def taggedName (members : List (Key × Node)) (start : Rest) : Except Fault (String × Rest × Node) :=
  match members with
  | [] => .error (noKey start)
  | (⟨.error f, _⟩, _) :: _ => .error f
  | (⟨.ok name, after⟩, n) :: _ => .ok (name, after, n)

/-- No value; in a part that was read before its type was known, also an object without members. -/
def unit (source : Source) (n : Node) : Except Fault Unit :=
  match source, n with
  | _, .null .. => .ok ()
  | .buffer, .object _ [] _ _ => .ok ()
  | _, n => .error (mismatch "unit" n)

def endName (rest : Rest) : Except Fault Unit :=
  match skipBlank rest with
  | [] => .error (.atEnd .endInObject)
  | '\x7d' :: _ => .ok ()
  | here => .error (.before .expectedValue here)

/-- One of a fixed set of names: a string, or an object whose one member has the name and no value. -/
def oneOf {α : Type} (known : List (String × α)) : Decoder α := fun s n =>
  match n with
  | .string (.ok name) after => findVariant known name after
  | .string (.error f) _ => .error f
  | .absent f => .error f
  | .object start members _ _ =>
    match s, members with
    | .text, _ =>
      match taggedName members start with
      | .error f => .error f
      | .ok (name, after, inner) =>
        match findVariant known name after with
        | .error f => .error f
        | .ok a =>
          match unit s inner with
          | .error f => .error f
          | .ok () => (endName inner.after).map fun _ => a
    | _, [(⟨.ok name, _⟩, inner)] =>
      match findVariant known name [] with
      | .error f => .error f
      | .ok a => (unit s inner).map fun _ => a
    | _, _ => .error (.unplaced (.invalidValue .object "map with a single key"))
  | .deep start _ =>
    match start with
    | '[' :: _ => .error (.past .expectedValue start)
    | _ => .error (.past .tooDeep start)
  | .null start _ | .boolean _ start _ | .number _ start _ | .list start .. =>
    match s with
    | .text => .error (.past .expectedValue start)
    | _ => .error (mismatch "string or map" n)
  | .broken start b =>
    match start with
    | [] | '"' :: _ => .error b.wanted
    | _ => .error (.past .expectedValue start)

structure Field where
  name : String
  check : Source → Node → Except Fault Unit
  mayLackInList : Bool

structure Record (α : Type) where
  fields : List Field
  build : Source → (String → Option Node) → Except Fault α

namespace Record

def pure {α : Type} (a : α) : Record α := ⟨[], fun _ _ => .ok a⟩

def and {α β : Type} (r : Record (α → β)) (field : Record α) : Record β where
  fields := r.fields ++ field.fields
  build source get :=
    match r.build source get with
    | .error f => .error f
    | .ok g => (field.build source get).map g

def required {α : Type} (name : String) (d : Decoder α) : Record α where
  fields := [⟨name, fun s n => (d s n).map fun _ => (), false⟩]
  build source get :=
    match get name with
    | some n => d source n
    | none => .error (.unplaced (.missingField name))

/-- A field that has a value of its own when it is absent. -/
def orElse {α : Type} (name : String) (d : Decoder α) (absent : α) : Record α where
  fields := [⟨name, fun s n => (d s n).map fun _ => (), true⟩]
  build source get :=
    match get name with
    | some n => d source n
    | none => .ok absent

/-- A field that may be absent in an object, but not in a list. -/
def nullable {α : Type} (name : String) (d : Decoder α) : Record (Option α) where
  fields := [⟨name, fun s n => (option d s n).map fun _ => (), false⟩]
  build source get :=
    match get name with
    | some n => option d source n
    | none => .ok none

def field? {α : Type} (r : Record α) (name : String) : Option Field :=
  r.fields.find? (·.name = name)

/-- Looks the members through in order: each known one has to be new and to decode. -/
def checkMembers (fields : List Field) (source : Source) :
    List String → List (Key × Node) → Except Fault Unit
  | _, [] => .ok ()
  | _, (⟨.error f, _⟩, _) :: _ => .error f
  | seen, (⟨.ok key, after⟩, n) :: ms =>
    match fields.find? (·.name = key) with
    | none =>
      match n.skipped with
      | .error f => .error f
      | .ok _ => checkMembers fields source seen ms
    | some field =>
      if key ∈ seen then .error (Fault.placedAt (.unplaced (.duplicateField key)) (leaveObject after))
      else
        match n with
        | .absent f => .error f
        | n =>
          match field.check source n with
          | .error f => .error (f.placedAt (leaveObject n.after))
          | .ok () => checkMembers fields source (key :: seen) ms

def findMember (members : List (Key × Node)) (name : String) : Option Node :=
  (members.find? fun m => match m.1.text with | .ok key => key = name | .error _ => false).map (·.2)

def ofMembers {α : Type} (r : Record α) (source : Source) (members : List (Key × Node))
    (wanted : Except Fault Rest) : Except Fault α :=
  match checkMembers r.fields source [] members with
  | .error f => .error f
  | .ok () =>
    match wanted with
    | .error f => .error f
    | .ok after =>
      match r.build source (findMember members) with
      | .ok a => .ok a
      | .error f => .error (f.placedAt after)

/-- Looks the items through beside the fields; `count` items came before, and `rest` follows them. -/
def checkItems (expected : String) (source : Source) (wanted : Except Fault Rest) :
    Nat → Rest → List Field → List Node → Except Fault (Nat × Rest)
  | count, rest, [], _ => .ok (count, rest)
  | count, rest, field :: fields, [] =>
    match wanted with
    | .error f => .error f
    | .ok after =>
      if field.mayLackInList then checkItems expected source wanted count rest fields []
      else .error (Fault.placedAt (.unplaced (.invalidLength count expected)) after)
  | count, _, field :: fields, n :: ns =>
    match field.check source n with
    | .error f => .error (f.placedAt (leaveList n.after))
    | .ok () => checkItems expected source wanted (count + 1) n.after fields ns

def findItem (fields : List Field) (items : List Node) (name : String) : Option Node :=
  ((fields.zip items).find? (·.1.name = name)).map (·.2)

def ofItems {α : Type} (r : Record α) (expected : String) (source : Source) (start : Rest)
    (items : List Node) (wanted : Except Fault Rest) : Except Fault α :=
  match checkItems expected source wanted 0 (start.drop 1) r.fields items with
  | .error f => .error f
  | .ok (count, rest) =>
    match closeList source count items rest with
    | .error f => .error f
    | .ok () => r.build source (findItem r.fields items)

def described {α : Type} (r : Record α) (expected : String) : String :=
  expected ++ " with " ++ toString r.fields.length ++
    (if r.fields.length = 1 then " element" else " elements")

/-- A record written as an object or as a list. -/
def decoder {α : Type} (r : Record α) (expected : String) : Decoder α := fun s n =>
  match n with
  | .object _ members wanted _ => r.ofMembers s members wanted
  | .list start items wanted _ => r.ofItems (r.described expected) s start items wanted
  | .deep start _ => .error (.past .tooDeep start)
  | n => .error (mismatch expected n)

def tuple {α : Type} (r : Record α) : Decoder α := fun s n =>
  let expected := "a tuple of size " ++ toString r.fields.length
  match n with
  | .list start items wanted _ => r.ofItems expected s start items wanted
  | .deep ('[' :: cs) _ => .error (.past .tooDeep ('[' :: cs))
  | n => .error (mismatch expected n)

/-- A record that is written as an object only. A list is left before it is refused. -/
def body {α : Type} (r : Record α) (expected : String) : Decoder α := fun s n =>
  match n with
  | .object _ members wanted _ => r.ofMembers s members wanted
  | .list start .. => .error (.before (.invalidType .list expected) (leaveList (start.drop 1)))
  | .deep start _ => .error (.past .tooDeep start)
  | n => .error (mismatch expected n)

end Record

/-- A union written as an object with two members: `tag` names the variant, `content` is its body. -/
structure Union (α : Type) where
  name : String
  tag : String
  content : String
  variants : List (String × Decoder α)

namespace Union

/-- A body that was read before its variant was known. -/
def ofBuffer {α : Type} (d : Decoder α) (body : Value) : Except Fault α :=
  match d .buffer body.toNode with
  | .ok a => .ok a
  | .error f => .error f.withoutPlace

/-- How far the members of a union were understood. -/
inductive Progress (α : Type) where
  | nothing
  | variant (d : Decoder α)
  | body (value : Value)
  | complete (a : α)

def placed {α : Type} (rest : Rest) (result : Except Fault α) : Except Fault α :=
  match result with
  | .ok a => .ok a
  | .error f => .error (f.placedAt (leaveObject rest))

def duplicate {α : Type} (name : String) (after : Rest) : Except Fault α :=
  placed after (.error (.unplaced (.duplicateField name)))

def readTag {α : Type} (u : Union α) (source : Source) (progress : Progress α) (after : Rest)
    (n : Node) : Except Fault (Progress α) :=
  match progress with
  | .nothing => placed n.after ((oneOf u.variants source n).map .variant)
  | .body value =>
    placed n.after <|
      match oneOf u.variants source n with
      | .error f => .error f
      | .ok d => (ofBuffer d value).map .complete
  | .variant _ | .complete _ => duplicate u.tag after

def readContent {α : Type} (u : Union α) (source : Source) (progress : Progress α) (after : Rest)
    (n : Node) : Except Fault (Progress α) :=
  match progress with
  | .nothing => placed n.after (n.value.map .body)
  | .variant d => placed n.after ((d source n).map .complete)
  | .body _ | .complete _ => duplicate u.content after

def readMembers {α : Type} (u : Union α) (source : Source) :
    Progress α → List (Key × Node) → Except Fault (Progress α)
  | progress, [] => .ok progress
  | _, (⟨.error f, _⟩, _) :: _ => .error f
  | progress, (⟨.ok key, after⟩, n) :: ms =>
    if key = u.tag then
      match u.readTag source progress after n with
      | .error f => .error f
      | .ok next => readMembers u source next ms
    else if key = u.content then
      match u.readContent source progress after n with
      | .error f => .error f
      | .ok next => readMembers u source next ms
    else
      match n.skipped with
      | .error f => .error f
      | .ok _ => readMembers u source progress ms

def finish {α : Type} (u : Union α) : Progress α → Except Fault α
  | .complete a => .ok a
  | .variant _ => .error (.unplaced (.missingField u.content))
  | .nothing | .body _ => .error (.unplaced (.missingField u.tag))

def expected {α : Type} (u : Union α) : String := "adjacently tagged enum " ++ u.name

/-- The two members of a union written as a list, the plain name of its variant first, and the place
after them. -/
def readItems {α : Type} (u : Union α) (source : Source) (items : List Node)
    (wanted : Except Fault Rest) : Except Fault (α × Rest) :=
  let missing (count : Nat) : Except Fault (α × Rest) :=
    match wanted with
    | .error f => .error f
    | .ok after => .error (Fault.placedAt (.unplaced (.invalidLength count u.expected)) after)
  match items with
  | [] => missing 0
  | tag :: more =>
    match plainName u.variants source tag with
    | .error f => .error (f.placedAt (leaveList tag.after))
    | .ok d =>
      match more with
      | [] => missing 1
      | body :: _ =>
        match d source body with
        | .error f => .error (f.placedAt (leaveList body.after))
        | .ok a => .ok (a, body.after)

def decoder {α : Type} (u : Union α) : Decoder α := fun s n =>
  match n with
  | .object _ members wanted _ =>
    match u.readMembers s .nothing members, wanted with
    | .error f, _ => .error f
    | .ok _, .error f => .error f
    | .ok progress, .ok after =>
      match u.finish progress with
      | .ok a => .ok a
      | .error f => .error (f.placedAt after)
  | .list _ items wanted _ =>
    match u.readItems s items wanted with
    | .error f => .error f
    | .ok (a, rest) => (closeList s 2 items rest).map fun _ => a
  | .deep start _ => .error (.past .tooDeep start)
  | n => .error (mismatch u.expected n)

end Union

def decodeText {α : Type} (d : Decoder α) (content : String) : Except Report α :=
  let cs := content.toList
  let node := Node.read cs
  match d .text node with
  | .error f => .error (f.report cs)
  | .ok a =>
    match skipBlank node.after with
    | [] => .ok a
    | here => .error (Fault.report (.past .trailingCharacters here) cs)

def decodeValue {α : Type} (d : Decoder α) (v : Value) : Except Report α :=
  match d .value v.toNode with
  | .ok a => .ok a
  | .error f => .error ⟨f.cause, none⟩

end SessionCourier.Json
