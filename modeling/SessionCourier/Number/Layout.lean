import SessionCourier.Number.Shortest

set_option autoImplicit false

namespace SessionCourier

structure Layout where
  positionalFrom : Option Int
  positionalTo : Option Int
  keepZero : Bool
  tie : Shortest.Tie

/-- Numbers in reports and messages: powers of ten from -5 to 15 are written out, and ties go to the
even digit. -/
def Layout.report : Layout := ⟨some (-5), some 15, true, .toEven⟩

/-- Numbers in running text: always written out, and ties go away from zero. -/
def Layout.prose : Layout := ⟨none, none, false, .away⟩

namespace Layout

def isPositional (l : Layout) (power : Int) : Bool :=
  (match l.positionalFrom with | some p => p ≤ power | none => true) &&
    match l.positionalTo with | some p => power ≤ p | none => true

def zeros (n : Nat) : List Char := List.replicate n '0'

def pointed (digits : List Char) (places : Nat) : List Char :=
  let padded := zeros (places + 1 - digits.length) ++ digits
  let whole := padded.length - places
  padded.take whole ++ '.' :: padded.drop whole

def writtenOut (l : Layout) (digits : List Char) (scale : Int) : List Char :=
  if 0 ≤ scale then digits ++ zeros scale.toNat ++ (if l.keepZero then ['.', '0'] else [])
  else pointed digits (-scale).toNat

def scientific (digits : List Char) (power : Int) : List Char :=
  let exponent := (if 0 ≤ power then '+' else '-') :: Nat.toDigits 10 power.natAbs
  match digits with
  | [] => []
  | [d] => d :: 'e' :: exponent
  | d :: rest => d :: '.' :: rest ++ 'e' :: exponent

def decimal (l : Layout) (d : Shortest.Decimal) : List Char :=
  let digits := Nat.toDigits 10 d.digits
  let power := Int.ofNat digits.length - 1 + d.scale
  if l.isPositional power then l.writtenOut digits d.scale else scientific digits power

def magnitude (l : Layout) (x : Float) : List Char :=
  if x == 0.0 then '0' :: (if l.keepZero then ['.', '0'] else [])
  else l.decimal ((Shortest.Binary.ofBits x.toBits).shortest l.tie)

/-- The sign of a zero is written, that of a number which is not one is not. -/
def render (l : Layout) (x : Float) : String :=
  if x.isNaN then "NaN"
  else
    let sign := if x.toBits >>> 63 = 1 then ['-'] else []
    String.ofList (sign ++ if x.isInf then ['i', 'n', 'f'] else l.magnitude x)

end Layout

end SessionCourier
