set_option autoImplicit false

namespace SessionCourier.Decimal

inductive Refusal where
  | empty
  | badDigit
  | tooLarge
  deriving DecidableEq, Repr

def Refusal.message : Refusal → String
  | .empty => "cannot parse integer from empty string"
  | .badDigit => "invalid digit found in string"
  | .tooLarge => "number too large to fit in target type"

def digit? (c : Char) : Option Nat :=
  if '0' ≤ c ∧ c ≤ '9' then some (c.toNat - '0'.toNat) else none

/-- Digits after the value `acc`; a character that is no digit is refused before the bound is tried. -/
def readDigits (bound : Nat) : Nat → List Char → Except Refusal Nat
  | acc, [] => .ok acc
  | acc, c :: cs =>
    match digit? c with
    | none => .error .badDigit
    | some d => if acc * 10 + d ≤ bound then readDigits bound (acc * 10 + d) cs else .error .tooLarge

/-- A sign alone is no number. -/
def read (bound : Nat) : List Char → Except Refusal Nat
  | [] => .error .empty
  | ['+'] => .error .badDigit
  | '+' :: cs => readDigits bound 0 cs
  | cs => readDigits bound 0 cs

/-- A number within bounds; anything else is absent. -/
def readRange (text : String) (low high : UInt64) : Option UInt64 :=
  match read (UInt64.size - 1) text.toList with
  | .ok n => if low.toNat ≤ n ∧ n ≤ high.toNat then some (UInt64.ofNat n) else none
  | .error _ => none

/-- The same for a size, which is as wide as an address of the machine. -/
def readSizeRange (text : String) (low high : USize) : Option USize :=
  match read (USize.size - 1) text.toList with
  | .ok n => if low.toNat ≤ n ∧ n ≤ high.toNat then some (USize.ofNat n) else none
  | .error _ => none

def render (n : Nat) : String := String.ofList (Nat.toDigits 10 n)

end SessionCourier.Decimal
