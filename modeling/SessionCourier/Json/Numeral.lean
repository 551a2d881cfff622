import SessionCourier.Json.Fault
import SessionCourier.Text.Decimal

set_option autoImplicit false

namespace SessionCourier.Json

inductive Number where
  | integer (value : Int)
  | float (value : Float)

structure Exponent where
  negative : Bool
  digits : List Char

structure Numeral where
  negative : Bool
  whole : List Char
  fraction : List Char
  exponent : Option Exponent

namespace Numeral

/-- Takes digits up to a bound, and returns those that would pass it. -/
def absorb (bound : Nat) : Nat → List Char → Nat × List Char
  | value, [] => (value, [])
  | value, c :: cs =>
    let next := value * 10 + (c.toNat - '0'.toNat)
    if bound < next then (value, c :: cs) else absorb bound next cs

def powerOfTen (n : Nat) : Float := Float.ofScientific 1 false n

/-- `value * 10 ^ power`, rounded once where the power itself is a float, or no finite float. -/
def scale (value : Float) (power : Int) : Option Float :=
  if power.natAbs ≤ 308 then
    if 0 ≤ power then
      let scaled := value * powerOfTen power.natAbs
      if scaled.isInf then none else some scaled
    else some (value / powerOfTen power.natAbs)
  else if value == 0.0 then some value
  else if 0 ≤ power then none
  else scale (value / 1e308) (power + 308)
termination_by power.natAbs
decreasing_by omega

def signed (n : Numeral) (x : Float) : Float := if n.negative then -x else x

/-- The digits of a fraction that were taken when `left` of them remain lower the power of ten. -/
def significand (n : Numeral) : Nat × Int :=
  let whole := absorb (UInt64.size - 1) 0 n.whole
  let all := absorb (UInt64.size - 1) whole.1 n.fraction
  (all.1, Int.ofNat whole.2.length - Int.ofNat (n.fraction.length - all.2.length))

def maxExponent : Nat := 0x7fffffff

def clampExponent (power : Int) : Int := max (-0x80000000) (min 0x7fffffff power)

def toFloat (n : Numeral) : Except Nat Float :=
  let (digits, power) := n.significand
  let finish (power : Int) : Except Nat Float :=
    match scale (UInt64.ofNat digits).toFloat power with
    | some x => .ok (n.signed x)
    | none => .error 0
  match n.exponent with
  | none => finish power
  | some e =>
    let (size, unread) := absorb maxExponent 0 e.digits
    match unread with
    | [] => finish (clampExponent (if e.negative then power - size else power + size))
    | _ :: unseen =>
      if digits ≠ 0 ∧ e.negative = false then .error unseen.length else .ok (n.signed 0.0)

/-- Minus zero, and an integer below the signed range, are floats. -/
def toNumber (n : Numeral) : Except Nat Number :=
  let (digits, unread) := absorb (UInt64.size - 1) 0 n.whole
  match unread, n.fraction, n.exponent with
  | [], [], none =>
    if n.negative = false then .ok (.integer digits)
    else if 0 < digits ∧ digits ≤ 0x8000000000000000 then .ok (.integer (-digits))
    else .ok (.float (-(UInt64.ofNat digits).toFloat))
  | _, _, _ => n.toFloat.map .float

def number (n : Numeral) (after : Rest) : Except Fault Number :=
  match n.toNumber with
  | .ok x => .ok x
  | .error unread => .error ⟨.numberOutOfRange, some ⟨after, Int.ofNat unread⟩⟩

end Numeral

end SessionCourier.Json
