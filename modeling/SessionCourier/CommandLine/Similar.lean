set_option autoImplicit false

namespace SessionCourier.CommandLine.Similar

def take (c : Char) (low high : Nat) : Nat → List (Char × Bool) → Option (List (Char × Bool))
  | _, [] => none
  | j, (d, taken) :: rest =>
    if high ≤ j then none
    else if low ≤ j ∧ c = d ∧ !taken then some ((d, true) :: rest)
    else (take c low high (j + 1) rest).map ((d, taken) :: ·)

/-- The characters of a word that match, in order, and the other word with their places taken. -/
def matching (range : Nat) : Nat → List Char → List (Char × Bool) → List Char × List (Char × Bool)
  | _, [], places => ([], places)
  | i, c :: cs, places =>
    match take c (i - range) (i + range + 1) 0 places with
    | none => matching range (i + 1) cs places
    | some places =>
      let (found, places) := matching range (i + 1) cs places
      (c :: found, places)

def similarity (a b : String) : Float :=
  let (as, bs) := (a.toList, b.toList)
  if as.isEmpty && bs.isEmpty then 1.0
  else
    let range := max as.length bs.length / 2 - 1
    let (found, places) := matching range 0 as (bs.map (·, false))
    let others := (places.filter (·.2)).map (·.1)
    let swaps := ((found.zip others).countP fun p => p.1 ≠ p.2) / 2
    let share (n m : Nat) : Float := (UInt64.ofNat n).toFloat / (UInt64.ofNat m).toFloat
    let m := found.length
    if m = 0 then 0.0
    else (share m as.length + share m bs.length + share (m - swaps) m) / 3.0

def candidates (word : String) (words : List String) : List String :=
  let close := (words.map fun w => (similarity word w, w)).filter fun p => 0.7 < p.1
  (close.mergeSort fun p q => !(q.1 < p.1)).map (·.2)

end SessionCourier.CommandLine.Similar
