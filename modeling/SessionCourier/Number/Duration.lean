set_option autoImplicit false

namespace SessionCourier

structure Duration where
  nanoseconds : Nat
  deriving DecidableEq, Repr, Inhabited

namespace Duration

def ofMilliseconds (ms : Nat) : Duration := ⟨ms * 1000000⟩

def ofSeconds (seconds nanoseconds : Nat) : Duration := ⟨seconds * 1000000000 + nanoseconds⟩

/-- The digits of a fraction of `width` places, without trailing zeros. -/
def fraction (n width : Nat) : List Char :=
  let digits := Nat.toDigits 10 n
  let padded := List.replicate (width - digits.length) '0' ++ digits
  (padded.reverse.dropWhile (· = '0')).reverse

def inUnit (n width : Nat) (unit : String) : String :=
  let part := n % Nat.pow 10 width
  let whole := String.ofList (Nat.toDigits 10 (n / Nat.pow 10 width))
  if part = 0 then whole ++ unit
  else whole ++ "." ++ String.ofList (fraction part width) ++ unit

def render (d : Duration) : String :=
  if 1000000000 ≤ d.nanoseconds then inUnit d.nanoseconds 9 "s"
  else if 1000000 ≤ d.nanoseconds then inUnit d.nanoseconds 6 "ms"
  else if 1000 ≤ d.nanoseconds then inUnit d.nanoseconds 3 "µs"
  else inUnit d.nanoseconds 0 "ns"

/-- Seconds as the rounded sum of whole seconds and the rounded rest. -/
def seconds (d : Duration) : Float :=
  (UInt64.ofNat (d.nanoseconds / 1000000000)).toFloat +
    (UInt64.ofNat (d.nanoseconds % 1000000000)).toFloat / 1000000000.0

def milliseconds (d : Duration) : Float := d.seconds * 1000.0

end Duration

end SessionCourier
