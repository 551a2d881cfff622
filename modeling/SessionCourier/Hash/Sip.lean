set_option autoImplicit false

namespace SessionCourier.Hash

structure Sip where
  v0 : UInt64
  v1 : UInt64
  v2 : UInt64
  v3 : UInt64

namespace Sip

def start : Sip :=
  ⟨0x736f6d6570736575, 0x646f72616e646f6d, 0x6c7967656e657261, 0x7465646279746573⟩

def rotate (x : UInt64) (n : UInt64) : UInt64 := (x <<< n) ||| (x >>> (64 - n))

def round (s : Sip) : Sip :=
  let a0 := s.v0 + s.v1
  let a1 := rotate s.v1 13 ^^^ a0
  let a2 := s.v2 + s.v3
  let a3 := rotate s.v3 16 ^^^ a2
  let b0 := rotate a0 32 + a3
  let b3 := rotate a3 21 ^^^ b0
  let b2 := a2 + a1
  let b1 := rotate a1 17 ^^^ b2
  ⟨b0, b1, rotate b2 32, b3⟩

def absorb (s : Sip) (word : UInt64) : Sip :=
  let t := round { s with v3 := s.v3 ^^^ word }
  { t with v0 := t.v0 ^^^ word }

/-- The bytes as one number, the first byte lowest. -/
def littleEndian : List UInt8 → UInt64
  | [] => 0
  | b :: bs => b.toUInt64 ||| (littleEndian bs <<< 8)

/-- What is left over of the last word carries the number of all bytes in its highest byte. -/
def finish (s : Sip) (length : Nat) (tail : List UInt8) : UInt64 :=
  let t := absorb s (littleEndian tail ||| (UInt64.ofNat length <<< 56))
  let u := round (round (round { t with v2 := t.v2 ^^^ 0xff }))
  u.v0 ^^^ u.v1 ^^^ u.v2 ^^^ u.v3

def blocks (length : Nat) : Sip → List UInt8 → UInt64
  | s, a :: b :: c :: d :: e :: f :: g :: h :: rest =>
    blocks length (absorb s (littleEndian [a, b, c, d, e, f, g, h])) rest
  | s, tail => finish s length tail

end Sip

def sip (bytes : List UInt8) : UInt64 := Sip.blocks bytes.length Sip.start bytes

end SessionCourier.Hash
