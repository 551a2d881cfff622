set_option autoImplicit false

namespace SessionCourier.Wire

def newline : UInt8 := 10

def carriageReturn : UInt8 := 13

def textOf? (bytes : List UInt8) : Option String := String.fromUTF8? ⟨bytes.toArray⟩

def bytesOf (text : String) : List UInt8 := text.toUTF8.toList

def lineOf (text : String) : List UInt8 := bytesOf text ++ [newline]

/-- Bytes up to the first newline, and it, but not more than `limit`; and the bytes after them. -/
def takeLine : Nat → List UInt8 → List UInt8 × List UInt8
  | 0, bytes => ([], bytes)
  | _, [] => ([], [])
  | limit + 1, b :: bytes =>
    if b = newline then ([b], bytes)
    else
      let (line, rest) := takeLine limit bytes
      (b :: line, rest)

def splitLines : List UInt8 → List (List UInt8)
  | [] => []
  | b :: bytes =>
    if b = newline then [b] :: splitLines bytes
    else
      match splitLines bytes with
      | [] => [[b]]
      | line :: lines => (b :: line) :: lines

/-- The line without its newline and the carriage return before it. -/
def chomp (line : List UInt8) : List UInt8 :=
  match line.reverse with
  | b :: before =>
    if b = newline then
      match before with
      | c :: rest => if c = carriageReturn then rest.reverse else before.reverse
      | [] => []
    else line
  | [] => []

structure Incoming where
  bytes : List UInt8
  ended : Bool
  deriving DecidableEq, Repr

namespace Incoming

def empty : Incoming := ⟨[], false⟩

def receive (i : Incoming) (bytes : List UInt8) : Incoming := { i with bytes := i.bytes ++ bytes }

def finish (i : Incoming) : Incoming := { i with ended := true }

/-- Reads a line of at most `limit` bytes. There is none if more has to come; what has come of it
is lost. -/
def read (i : Incoming) (limit : Nat) : Option (List UInt8) × Incoming :=
  let (line, rest) := takeLine limit i.bytes
  let complete := line.getLast? = some newline ∨ line.length = limit ∨ i.ended
  (if complete then some line else none, { i with bytes := rest })

end Incoming

end SessionCourier.Wire
