set_option autoImplicit false

/-!
# The fewest digits that read back

A finite positive binary64 number is `mantissa * 2 ^ exponent`, and the reals that round to it form
an interval around it whose ends belong to it exactly when the mantissa is even. Among all decimal
grids `digit * 10 ^ scale`, the coarsest one with a point in that interval gives the fewest digits
from which the number can be read back; of two points on that grid the nearer is taken, and of two
equally near ones the one that `Tie` names. All comparisons are made on natural numbers.
-/

namespace SessionCourier.Shortest

/-- A positive number `mantissa * 2 ^ exponent`; `narrow` marks a lower neighbour at half the gap. -/
structure Binary where
  mantissa : Nat
  exponent : Int
  narrow : Bool
  deriving DecidableEq, Repr

def Binary.ofBits (bits : UInt64) : Binary :=
  let field := ((bits >>> 52) &&& 0x7ff).toNat
  let fraction := (bits &&& 0xfffffffffffff).toNat
  if field = 0 then ⟨fraction, -1074, false⟩
  else ⟨(1 <<< 52) + fraction, Int.ofNat field - 1075, fraction = 0 && 1 < field⟩

/-- Which of two equally near points is taken: the one with an even last digit, or the greater. -/
inductive Tie where
  | toEven
  | away
  deriving DecidableEq, Repr

/-- A decimal number `digits * 10 ^ scale`. -/
structure Decimal where
  digits : Nat
  scale : Int
  deriving DecidableEq, Repr

def powerOr (base : Nat) (exponent : Int) : Nat := if 0 ≤ exponent then base.pow exponent.toNat else 1

/-- Quarters of the gap that a grid step measures, and the number and its interval in that measure. -/
structure Grid where
  step : Nat
  value : Nat
  low : Nat
  high : Nat
  closed : Bool

def Grid.of (b : Binary) (scale : Int) : Grid :=
  let quarter := b.exponent - 2
  let unit := powerOr 2 quarter * powerOr 10 (-scale)
  { step := powerOr 10 scale * powerOr 2 (-quarter)
    value := 4 * b.mantissa * unit
    low := (4 * b.mantissa - if b.narrow then 1 else 2) * unit
    high := (4 * b.mantissa + 2) * unit
    closed := b.mantissa % 2 = 0 }

def Grid.holds (g : Grid) (d : Nat) : Bool :=
  d ≠ 0 && if g.closed then g.low ≤ d * g.step && d * g.step ≤ g.high
    else g.low < d * g.step && d * g.step < g.high

def Tie.takesBelow (tie : Tie) (below : Nat) : Bool :=
  match tie with
  | .toEven => below % 2 = 0
  | .away => false

/-- The point of the grid in the interval that is nearest to the number, if there is one. -/
def Grid.nearest? (tie : Tie) (g : Grid) : Option Nat :=
  let below := g.value / g.step
  let above := below + 1
  let down := g.value - below * g.step
  let up := above * g.step - g.value
  match g.holds below, g.holds above with
  | true, true => some (if down < up || (down = up && tie.takesBelow below) then below else above)
  | true, false => some below
  | false, true => some above
  | false, false => none

/-- Grids from coarse to fine; seventeen digits always suffice, so the last case is not met. -/
def search (tie : Tie) (b : Binary) : Nat → Int → Decimal
  | 0, scale => let g := Grid.of b scale; ⟨g.value / g.step, scale⟩
  | n + 1, scale =>
    match (Grid.of b scale).nearest? tie with
    | some d => ⟨d, scale⟩
    | none => search tie b n (scale - 1)

/-- An exponent of ten that no number of this size reaches. -/
def ceiling (b : Binary) : Int :=
  (Int.ofNat b.mantissa.log2 + b.exponent + 1) * 30103 / 100000 + 1

def Binary.shortest (tie : Tie) (b : Binary) : Decimal := search tie b 21 (ceiling b)

end SessionCourier.Shortest
