set_option autoImplicit false

namespace SessionCourier.Text

/-- Where a text stands in an escape sequence. -/
inductive Sequence where
  | outside
  | opened
  /-- After characters that say which set the last character is of. -/
  | selecting
  | parameters
  /-- In a command to the terminal, which a bell may end. -/
  | command
  | text
  deriving DecidableEq, Repr

namespace Sequence

def isBreak (c : Char) : Bool := c = '\t' || c = '\n' || c = '\x0c' || c = '\r'

/-- The state after a character that is none of the controls which every state obeys. -/
def next (s : Sequence) (c : Char) : Sequence :=
  match s with
  | outside => outside
  | opened =>
    if c = '[' then parameters
    else if c = ']' then command
    else if c = 'P' || c = 'X' || c = '^' || c = '_' then text
    else if ' ' ≤ c && c ≤ '/' then selecting
    else if '0' ≤ c && c ≤ '~' then outside
    else opened
  | selecting => if '0' ≤ c && c ≤ '~' then outside else selecting
  | parameters => if '@' ≤ c && c ≤ '~' then outside else parameters
  | command => if c = '\x07' then outside else command
  | text => text

def isShown (c : Char) : Bool := isBreak c || (' ' ≤ c && c ≠ '\x7f')

def strip : Sequence → List Char → List Char
  | _, [] => []
  | s, c :: cs =>
    if c = '\x1b' then strip opened cs
    else if c = '\x18' || c = '\x1a' then strip outside cs
    else
      match s with
      | outside => if isShown c then c :: strip outside cs else strip outside cs
      | command | text => strip (s.next c) cs
      | opened | selecting | parameters =>
        if isBreak c then c :: strip outside cs else strip (s.next c) cs

end Sequence

def plain (text : String) : String := String.ofList (Sequence.outside.strip text.toList)

end SessionCourier.Text
