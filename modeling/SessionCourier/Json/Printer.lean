import SessionCourier.Json.Value
import SessionCourier.Number.Layout

set_option autoImplicit false

namespace SessionCourier.Json

def escaped (c : Char) : List Char :=
  if c = '"' then ['\\', '"']
  else if c = '\\' then ['\\', '\\']
  else if c = '\n' then ['\\', 'n']
  else if c = '\r' then ['\\', 'r']
  else if c = '\t' then ['\\', 't']
  else if c = '\x08' then ['\\', 'b']
  else if c = '\x0c' then ['\\', 'f']
  else if c.toNat < 0x20 then
    ['\\', 'u', '0', '0', Nat.digitChar (c.toNat / 16), Nat.digitChar (c.toNat % 16)]
  else [c]

def writeString (text : String) : List Char := '"' :: text.toList.flatMap escaped ++ ['"']

def writeInteger (n : Int) : List Char :=
  if n < 0 then '-' :: Nat.toDigits 10 n.natAbs else Nat.toDigits 10 n.natAbs

def writeFloat (x : Float) : List Char :=
  if x.isNaN || x.isInf then "null".toList else (Layout.report.render x).toList

def writeBoolean : Bool → List Char
  | true => "true".toList
  | false => "false".toList

namespace Value

mutual

def write : Value → List Char
  | .null => "null".toList
  | .boolean b => writeBoolean b
  | .integer n => writeInteger n
  | .float x => writeFloat x
  | .string s => writeString s
  | .list items => '[' :: writeItems items ++ [']']
  | .object members => '\x7b' :: writeMembers members ++ ['\x7d']

def writeItems : List Value → List Char
  | [] => []
  | [v] => write v
  | v :: vs => write v ++ ',' :: writeItems vs

def writeMembers : List (String × Value) → List Char
  | [] => []
  | [(k, v)] => writeString k ++ ':' :: write v
  | (k, v) :: ms => writeString k ++ ':' :: write v ++ ',' :: writeMembers ms

end

def compact (v : Value) : String := String.ofList v.write

def newline (level : Nat) : List Char := '\n' :: List.replicate (2 * level) ' '

mutual

def indented (level : Nat) : Value → List Char
  | .list [] => "[]".toList
  | .list items => '[' :: indentedItems (level + 1) items ++ newline level ++ [']']
  | .object [] => ['\x7b', '\x7d']
  | .object members => '\x7b' :: indentedMembers (level + 1) members ++ newline level ++ ['\x7d']
  | v => write v

def indentedItems (level : Nat) : List Value → List Char
  | [] => []
  | [v] => newline level ++ indented level v
  | v :: vs => newline level ++ indented level v ++ ',' :: indentedItems level vs

def indentedMembers (level : Nat) : List (String × Value) → List Char
  | [] => []
  | [(k, v)] => newline level ++ writeString k ++ ':' :: ' ' :: indented level v
  | (k, v) :: ms =>
    newline level ++ writeString k ++ ':' :: ' ' :: indented level v ++ ',' :: indentedMembers level ms

end

def pretty (v : Value) : String := String.ofList (v.indented 0)

end Value

end SessionCourier.Json
