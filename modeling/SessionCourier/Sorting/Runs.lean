import SessionCourier.Sorting.Few

set_option autoImplicit false

/-!
# Sorting by runs

A list is cut into runs: those that it already has, if they are long, and pieces of a fixed length
between them. A run that follows another is merged with it sooner or later according to the depth
at which the boundary between them lies in a balanced tree over the whole list. Two pieces that are
not sorted yet are only put together; they are sorted when a sorted run joins them, or at the end.
-/

namespace SessionCourier.Sorting

structure Run (α : Type) where
  items : List α
  sorted : Bool

namespace Run

def chain {α : Type} (test : α → α → Bool) (x : α) : List α → List α
  | [] => []
  | y :: ys => if test x y then y :: chain test y ys else []

/-- The run at the beginning of a list, in order: one in which no item is less than the one before
it, or one in which each is, turned round. -/
def first {α : Type} (less : Less α) : List α → List α
  | x :: y :: rest =>
    if less y x then (x :: y :: chain (fun a b => less b a) y rest).reverse
    else x :: y :: chain (fun a b => !less b a) y rest
  | items => items

/-- The length from which a run of the list is taken as it is: half the list or 64 in a short one,
and about the square root of the number of items in a long one. -/
def goodLength (count : Nat) : Nat :=
  if count ≤ 4096 then min (count - count / 2) 64
  else
    let shift := (1 + count.log2) / 2
    ((1 <<< shift) + (count >>> shift)) / 2

/-- How a list is cut and sorted: whether pieces are sorted at once, and how it is done later. -/
structure Plan (α : Type) where
  less : Less α
  eager : Bool
  sortLater : List α → Option (List α)

variable {α : Type}

def next? (plan : Plan α) (good : Nat) (items : List α) : Option (Run α) :=
  let found := first plan.less items
  if good ≤ found.length then some ⟨found, true⟩
  else if plan.eager then (Few.sort? plan.less (items.take Few.most)).map (⟨·, true⟩)
  else some ⟨items.take good, false⟩

def cut? (plan : Plan α) (good : Nat) (items : List α) : Option (List (Run α)) :=
  match items with
  | [] => some []
  | x :: xs => do
    let run ← next? plan good (x :: xs)
    let more ← cut? plan good (xs.drop (run.items.length - 1))
    return run :: more
termination_by items.length
decreasing_by simp only [List.length_cons, List.length_drop]; omega

def settle? (plan : Plan α) (run : Run α) : Option (List α) :=
  if run.sorted then some run.items else plan.sortLater run.items

def join? (plan : Plan α) (left right : Run α) : Option (Run α) :=
  if left.sorted || right.sorted then do
    return ⟨mergeRuns plan.less (← settle? plan left) (← settle? plan right), true⟩
  else some ⟨left.items ++ right.items, false⟩

def leadingZeros (n : Nat) : Nat := if n = 0 then 64 else 63 - n.log2

def depth (count start middle stop : Nat) : Nat :=
  let scale := ((1 <<< 62) + count - 1) / count
  leadingZeros ((scale * (start + middle)) ^^^ (scale * (middle + stop)))

/-- Joins a run with those before it whose boundary is at least as deep. -/
def collapse? (plan : Plan α) (limit : Nat) (run : Run α) :
    List (Run α × Nat) → Option (Run α × List (Run α × Nat))
  | [] => some (run, [])
  | (left, d) :: stack =>
    if limit ≤ d then do collapse? plan limit (← join? plan left run) stack
    else some (run, (left, d) :: stack)

/-- Joins all runs; `read` items stand before those in `later`, and the last of them are in `run`. -/
def joinAll? (plan : Plan α) (count read : Nat) (run : Run α) (stack : List (Run α × Nat)) :
    List (Run α) → Option (Run α)
  | [] => (collapse? plan 0 run stack).map (·.1)
  | next :: later => do
    let stop := read + next.items.length
    let d := depth count (read - run.items.length) read stop
    let (joined, stack) ← collapse? plan d run stack
    joinAll? plan count stop next ((joined, d) :: stack) later

def sort? (plan : Plan α) (items : List α) : Option (List α) := do
  match ← cut? plan (goodLength items.length) items with
  | [] => return []
  | run :: later =>
    settle? plan (← joinAll? plan items.length run.items.length run [] later)

end Run

end SessionCourier.Sorting
