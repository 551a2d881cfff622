import SessionCourier.Json.Node

set_option autoImplicit false

/-!
# Reading JSON

`Node.read` takes what stands at the beginning of a text apart into a node. It reads lists and
objects inside each other up to a depth; what lies deeper is only skipped. `skipDeep` does that with
a stack of its own, so a text may be nested without a bound where nobody wants its value.
-/

namespace SessionCourier.Json

def isBlank (c : Char) : Bool := c = ' ' || c = '\n' || c = '\t' || c = '\r'

def isDigit (c : Char) : Bool := '0' ≤ c && c ≤ '9'

def skipBlank (rest : Rest) : Rest := rest.dropWhile isBlank

def scanWord : List Char → Rest → Except Fault Rest
  | [], rest => .ok rest
  | _ :: _, [] => .error (.atEnd .endInValue)
  | e :: es, c :: cs => if c = e then scanWord es cs else .error (.past .expectedWord (c :: cs))

/-- A numeral stops where a digit is needed. At the end of the text a skipping reader names it as any other. -/
def digitMissing (rest : Rest) : Break :=
  match rest with
  | [] => ⟨.atEnd .endInValue, .atEnd .badNumber⟩
  | _ :: _ => .both (.past .badNumber rest)

def startsWithDigit : Rest → Bool
  | [] => false
  | c :: _ => isDigit c

def scanExponent (n : Numeral) (rest : Rest) : Except Break (Numeral × Rest) :=
  let (negative, digits) :=
    match rest with
    | '-' :: cs => (true, cs)
    | '+' :: cs => (false, cs)
    | cs => (false, cs)
  if startsWithDigit digits then
    .ok ({ n with exponent := some ⟨negative, digits.takeWhile isDigit⟩ }, digits.dropWhile isDigit)
  else .error (digitMissing digits)

def scanPower (n : Numeral) (rest : Rest) : Except Break (Numeral × Rest) :=
  match rest with
  | 'e' :: cs => scanExponent n cs
  | 'E' :: cs => scanExponent n cs
  | _ => .ok (n, rest)

def scanFraction (n : Numeral) (rest : Rest) : Except Break (Numeral × Rest) :=
  match rest with
  | '.' :: cs =>
    if startsWithDigit cs then
      scanPower { n with fraction := cs.takeWhile isDigit } (cs.dropWhile isDigit)
    else .error (digitMissing cs)
  | _ => scanPower n rest

/-- A zero stands alone before the point. -/
def scanWhole (negative : Bool) (rest : Rest) : Except Break (Numeral × Rest) :=
  match rest with
  | '0' :: cs =>
    if startsWithDigit cs then .error (.both (.past .badNumber cs))
    else scanFraction ⟨negative, ['0'], [], none⟩ cs
  | _ =>
    if startsWithDigit rest then
      scanFraction ⟨negative, rest.takeWhile isDigit, [], none⟩ (rest.dropWhile isDigit)
    else .error (digitMissing rest)

def scanNumeral (rest : Rest) : Except Break (Numeral × Rest) :=
  match rest with
  | '-' :: cs => scanWhole true cs
  | cs => scanWhole false cs

def hexValue? (c : Char) : Option Nat :=
  if '0' ≤ c ∧ c ≤ '9' then some (c.toNat - '0'.toNat)
  else if 'a' ≤ c ∧ c ≤ 'f' then some (c.toNat - 'a'.toNat + 10)
  else if 'A' ≤ c ∧ c ≤ 'F' then some (c.toNat - 'A'.toNat + 10)
  else none

def scanHex (rest : Rest) : Except Fault (Nat × Rest) :=
  if Rest.bytes (rest.take 4) < 4 then .error (.atEnd .endInString)
  else
    match rest with
    | a :: b :: c :: d :: cs =>
      match hexValue? a, hexValue? b, hexValue? c, hexValue? d with
      | some a, some b, some c, some d => .ok (((a * 16 + b) * 16 + c) * 16 + d, cs)
      | _, _, _, _ => .error ⟨.badEscape, some ⟨rest, -4⟩⟩
    | _ => .error ⟨.badEscape, some ⟨rest, -4⟩⟩

def isHighSurrogate (n : Nat) : Bool := 0xd800 ≤ n && n ≤ 0xdbff

def isLowSurrogate (n : Nat) : Bool := 0xdc00 ≤ n && n ≤ 0xdfff

/-- What an escape stands for: a character, or a surrogate without its partner, which is a flaw. -/
inductive Escape where
  | character (c : Char) (rest : Rest)
  | flaw (fault : Fault) (rest : Rest)

def unfinishedPair : Rest → Fault
  | [] => .atEnd .endInString
  | rest => .past .unfinishedSurrogate rest

/-- After a high surrogate. A partner is taken; anything else is left for the next step. -/
def pairSurrogate (high : Nat) (rest : Rest) : Escape :=
  match rest with
  | '\\' :: 'u' :: cs =>
    match scanHex cs with
    | .ok (low, after) =>
      if isLowSurrogate low then
        .character (Char.ofNat (0x10000 + (high - 0xd800) * 0x400 + (low - 0xdc00))) after
      else .flaw (.before .loneSurrogate after) rest
    | .error f => .flaw f rest
  | '\\' :: cs => .flaw (unfinishedPair cs) rest
  | cs => .flaw (unfinishedPair cs) rest

def scanUnit (rest : Rest) : Except Fault Escape :=
  match scanHex rest with
  | .error f => .error f
  | .ok (n, after) =>
    if isLowSurrogate n then .ok (.flaw (.before .loneSurrogate after) after)
    else if isHighSurrogate n then .ok (pairSurrogate n after)
    else .ok (.character (Char.ofNat n) after)

def scanEscape (rest : Rest) : Except Fault Escape :=
  match rest with
  | [] => .error (.atEnd .endInString)
  | 'u' :: cs => scanUnit cs
  | c :: cs =>
    if c = '"' ∨ c = '\\' ∨ c = '/' then .ok (.character c cs)
    else if c = 'b' then .ok (.character '\x08' cs)
    else if c = 'f' then .ok (.character '\x0c' cs)
    else if c = 'n' then .ok (.character '\n' cs)
    else if c = 'r' then .ok (.character '\r' cs)
    else if c = 't' then .ok (.character '\t' cs)
    else .error (.past .badEscape rest)

/-- The first flaw of a string is the fault of its text, unless the string breaks off before it. -/
def flawed {α : Type} (flaw : Option Fault) (other : α) (fault : Fault → α) : α :=
  match flaw with
  | none => other
  | some f => fault f

def stringBreak (flaw : Option Fault) (wanted skipped : Fault) : Break :=
  ⟨flaw.getD wanted, skipped⟩

/-- After the opening quote; `read` holds what was read, last character first. -/
def scanString (fuel : Nat) (read : List Char) (flaw : Option Fault) (rest : Rest) :
    Except Break (Except Fault String × Rest) :=
  match fuel, rest with
  | 0, _ | _, [] => .error (stringBreak flaw (.atEnd .endInString) (.atEnd .endInString))
  | fuel + 1, c :: cs =>
    if c = '"' then .ok (flawed flaw (.ok (String.ofList read.reverse)) .error, cs)
    else if c = '\\' then
      match scanEscape cs with
      | .error f => .error (stringBreak flaw f f)
      | .ok (.character d after) => scanString fuel (d :: read) flaw after
      | .ok (.flaw f after) => scanString fuel read (flaw.or (some f)) after
    else if c.toNat < 0x20 then
      .error (stringBreak flaw (.past .controlCharacter rest) (.before .controlCharacter rest))
    else scanString fuel (c :: read) flaw cs

/-- A string after its opening quote; `size` is at least the length of the text. -/
def readString (size : Nat) (rest : Rest) : Except Break (Except Fault String × Rest) :=
  scanString (size + 1) [] none rest

inductive Frame where
  | list
  | object
  deriving DecidableEq

def Frame.close : Frame → Char
  | .list => ']'
  | .object => '\x7d'

def Frame.truncated : Frame → Cause
  | .list => .endInList
  | .object => .endInObject

def Frame.expectedEnd : Frame → Cause
  | .list => .expectedListEnd
  | .object => .expectedObjectEnd

/-- What a skipping reader waits for inside the innermost frame. -/
inductive Awaited where
  | value
  | key
  | firstOrEnd
  | commaOrEnd

def Frame.entry : Frame → Awaited
  | .list => .value
  | .object => .key

/-- A value that is neither a list nor an object. -/
def skipScalar (size : Nat) (rest : Rest) : Except Fault Rest :=
  match rest with
  | [] => .error (.atEnd .endInValue)
  | 'n' :: cs => scanWord ['u', 'l', 'l'] cs
  | 't' :: cs => scanWord ['r', 'u', 'e'] cs
  | 'f' :: cs => scanWord ['a', 'l', 's', 'e'] cs
  | '"' :: cs =>
    match readString size cs with
    | .ok (_, after) => .ok after
    | .error b => .error b.skipped
  | c :: _ =>
    if c = '-' ∨ isDigit c then
      match scanNumeral rest with
      | .ok (_, after) => .ok after
      | .error b => .error b.skipped
    else .error (.past .expectedValue rest)

def skipKey (size : Nat) (rest : Rest) : Except Fault Rest :=
  match rest with
  | [] => .error (.atEnd .endInObject)
  | '"' :: cs =>
    match readString size cs with
    | .error b => .error b.skipped
    | .ok (_, after) =>
      match skipBlank after with
      | [] => .error (.atEnd .endInObject)
      | ':' :: cs => .ok cs
      | other => .error (.past .expectedColon other)
  | _ => .error (.past .keyNotString rest)

/-- Skips to the end of the outermost of the open frames. -/
def skipFrames (size fuel : Nat) (frame : Frame) (outer : List Frame) (awaited : Awaited) (rest : Rest) :
    Except Fault Rest :=
  match fuel with
  | 0 => .error (.atEnd frame.truncated)
  | fuel + 1 =>
    let here := skipBlank rest
    let leave (cs : Rest) : Except Fault Rest :=
      match outer with
      | [] => .ok cs
      | f :: fs => skipFrames size fuel f fs .commaOrEnd cs
    match awaited with
    | .value =>
      match here with
      | '[' :: cs => skipFrames size fuel .list (frame :: outer) .firstOrEnd cs
      | '\x7b' :: cs => skipFrames size fuel .object (frame :: outer) .firstOrEnd cs
      | _ =>
        match skipScalar size here with
        | .error f => .error f
        | .ok cs => skipFrames size fuel frame outer .commaOrEnd cs
    | .key =>
      match skipKey size here with
      | .error f => .error f
      | .ok cs => skipFrames size fuel frame outer .value cs
    | .firstOrEnd =>
      match here with
      | [] => .error (.atEnd frame.truncated)
      | c :: cs => if c = frame.close then leave cs else skipFrames size fuel frame outer frame.entry here
    | .commaOrEnd =>
      match here with
      | [] => .error (.atEnd frame.truncated)
      | c :: cs =>
        if c = frame.close then leave cs
        else if c = ',' then skipFrames size fuel frame outer frame.entry cs
        else .error (.past frame.expectedEnd here)

def skipDeep (size : Nat) (frame : Frame) (rest : Rest) : Except Fault Rest :=
  skipFrames size (2 * size + 2) frame [] .firstOrEnd rest

structure Ending where
  wanted : Except Fault Rest
  skipped : Except Fault Rest

def Ending.closed (after : Rest) : Ending := ⟨.ok after, .ok after⟩

def Ending.fault (wanted skipped : Fault) : Ending := ⟨.error wanted, .error skipped⟩

/-- After a node that could not be read to its end nothing follows. -/
def Ending.lost (fault : Fault) : Ending := .fault fault fault

/-- Items after at least one other; `read` holds those that were read, last one first. -/
def readItems (inner : Rest → Node) (fuel : Nat) (read : List Node) (rest : Rest) :
    List Node × Ending :=
  match fuel with
  | 0 => (read.reverse, .lost (.atEnd .endInList))
  | fuel + 1 =>
    match skipBlank rest with
    | [] => (read.reverse, .lost (.atEnd .endInList))
    | ']' :: cs => (read.reverse, .closed cs)
    | ',' :: cs =>
      match skipBlank cs with
      | [] => (read.reverse, .lost (.atEnd .endInValue))
      | ']' :: more =>
        (read.reverse, .fault (.past .trailingComma (']' :: more)) (.past .expectedValue (']' :: more)))
      | here =>
        let node := inner here
        match node.skipped with
        | .ok after => readItems inner fuel (node :: read) after
        | .error f => ((node :: read).reverse, .lost f)
    | other => (read.reverse, .lost (.past .expectedListEnd other))

def readList (size : Nat) (inner : Rest → Node) (start rest : Rest) : Node :=
  let node (result : List Node × Ending) : Node :=
    .list start result.1 result.2.wanted result.2.skipped
  match skipBlank rest with
  | [] => node ([], .lost (.atEnd .endInList))
  | ']' :: cs => node ([], .closed cs)
  | here =>
    let first := inner here
    match first.skipped with
    | .ok after => node (readItems inner size [first] after)
    | .error f => node ([first], .lost f)

def readMember (size : Nat) (inner : Rest → Node) (rest : Rest) : Key × Node :=
  match readString size rest with
  | .error b => (⟨.error b.wanted, []⟩, .absent b.skipped)
  | .ok (text, after) =>
    (⟨text, after⟩,
      match skipBlank after with
      | [] => .absent (.atEnd .endInObject)
      | ':' :: cs => inner (skipBlank cs)
      | other => .absent (.past .expectedColon other))

def readMembers (size : Nat) (inner : Rest → Node) (fuel : Nat) (read : List (Key × Node)) (rest : Rest) :
    List (Key × Node) × Ending :=
  match fuel with
  | 0 => (read.reverse, .lost (.atEnd .endInObject))
  | fuel + 1 =>
    match skipBlank rest with
    | [] => (read.reverse, .lost (.atEnd .endInObject))
    | '\x7d' :: cs => (read.reverse, .closed cs)
    | ',' :: cs =>
      match skipBlank cs with
      | [] => (read.reverse, .fault (.atEnd .endInValue) (.atEnd .endInObject))
      | '\x7d' :: more =>
        (read.reverse,
          .fault (.past .trailingComma ('\x7d' :: more)) (.past .keyNotString ('\x7d' :: more)))
      | '"' :: more =>
        let member := readMember size inner more
        match member.2.skipped with
        | .ok after => readMembers size inner fuel (member :: read) after
        | .error f => ((member :: read).reverse, .lost f)
      | other => (read.reverse, .lost (.past .keyNotString other))
    | other => (read.reverse, .lost (.past .expectedObjectEnd other))

def readObject (size : Nat) (inner : Rest → Node) (start rest : Rest) : Node :=
  let node (result : List (Key × Node) × Ending) : Node :=
    .object start result.1 result.2.wanted result.2.skipped
  match skipBlank rest with
  | [] => node ([], .lost (.atEnd .endInObject))
  | '\x7d' :: cs => node ([], .closed cs)
  | '"' :: cs =>
    let member := readMember size inner cs
    match member.2.skipped with
    | .ok after => node (readMembers size inner size [member] after)
    | .error f => node ([member], .lost f)
  | other => node ([], .lost (.past .keyNotString other))

def readScalar (size : Nat) (start : Rest) : Node :=
  let word (value : Rest → Node) (result : Except Fault Rest) : Node :=
    match result with
    | .ok after => value after
    | .error f => .broken start (.both f)
  match start with
  | [] => .broken start (.both (.atEnd .endInValue))
  | 'n' :: cs => word (.null start) (scanWord ['u', 'l', 'l'] cs)
  | 't' :: cs => word (.boolean true start) (scanWord ['r', 'u', 'e'] cs)
  | 'f' :: cs => word (.boolean false start) (scanWord ['a', 'l', 's', 'e'] cs)
  | '"' :: cs =>
    match readString size cs with
    | .ok (text, after) => .string text after
    | .error b => .broken start b
  | c :: _ =>
    if c = '-' ∨ isDigit c then
      match scanNumeral start with
      | .ok (n, after) => .number (n.number after) start after
      | .error b => .broken start b
    else .broken start (.both (.past .expectedValue start))

def readNode (size : Nat) : Nat → Rest → Node
  | 0, start =>
    match start with
    | '[' :: cs => .deep start (skipDeep size .list cs)
    | '\x7b' :: cs => .deep start (skipDeep size .object cs)
    | _ => readScalar size start
  | depth + 1, start =>
    match start with
    | '[' :: cs => readList size (readNode size depth) start cs
    | '\x7b' :: cs => readObject size (readNode size depth) start cs
    | _ => readScalar size start

/-- How many lists and objects may lie inside each other where their value is wanted. -/
def maxDepth : Nat := 127

def Node.read (text : List Char) : Node := readNode text.length maxDepth (skipBlank text)

end SessionCourier.Json
