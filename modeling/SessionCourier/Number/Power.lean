set_option autoImplicit false

namespace SessionCourier.Power

def accumulate (product square : Float) (exponent : Nat) : Float :=
  let product' := if exponent % 2 = 1 then product * square else product
  if exponent / 2 = 0 then product' else accumulate product' (square * square) (exponent / 2)
termination_by exponent
decreasing_by omega

def power (base : Float) (exponent : Nat) : Float := accumulate 1.0 base exponent

/-- The smaller of two numbers; one that is not a number never wins. -/
def lesser (x y : Float) : Float :=
  if x.isNaN then y else if y.isNaN then x else if x < y then x else y

end SessionCourier.Power
