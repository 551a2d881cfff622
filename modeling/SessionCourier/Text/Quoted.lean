import SessionCourier.Text.Unprintable

set_option autoImplicit false

namespace SessionCourier.Text

def isPlainAscii (n : Nat) : Bool := 0x20 ≤ n && n ≤ 0x7e

/-- The character has a shape of its own, so it can stand in a message as it is. -/
def isShown (c : Char) : Bool :=
  isPlainAscii c.toNat || !(hidden.contains c.toNat || extending.contains c.toNat)

def codePoint (c : Char) : List Char :=
  ['\\', 'u', '\x7b'] ++ Nat.toDigits 16 c.toNat ++ ['\x7d']

def quotedChar (c : Char) : List Char :=
  if c = '\x00' then ['\\', '0']
  else if c = '\t' then ['\\', 't']
  else if c = '\n' then ['\\', 'n']
  else if c = '\r' then ['\\', 'r']
  else if c = '"' then ['\\', '"']
  else if c = '\\' then ['\\', '\\']
  else if isShown c then [c]
  else codePoint c

def quoted (text : String) : String :=
  String.ofList ('"' :: text.toList.flatMap quotedChar ++ ['"'])

end SessionCourier.Text
