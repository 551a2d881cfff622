import SessionCourier.Sorting.Merge

set_option autoImplicit false

namespace SessionCourier.Sorting

/-- Puts an item among others that stand last to first: it goes before the first that it is not
less than. -/
def insertBack {α : Type} (less : Less α) (x : α) : List α → List α
  | [] => [x]
  | y :: ys => if less x y then y :: insertBack less x ys else x :: y :: ys

def insertAll {α : Type} (less : Less α) (sorted items : List α) : List α :=
  (items.foldl (fun back x => insertBack less x back) sorted.reverse).reverse

namespace Few

/-- Sorts two pairs and then, of all four, the least and the greatest; the last comparison is of
the two that are left. -/
def sortFour {α : Type} (less : Less α) (v w x y : α) : List α :=
  let (a, b) := if less w v then (w, v) else (v, w)
  let (c, d) := if less y x then (y, x) else (x, y)
  let leastRight := less c a
  let greatestLeft := less d b
  let least := if leastRight then c else a
  let greatest := if greatestLeft then b else d
  let left := if leastRight then a else if greatestLeft then c else b
  let right := if greatestLeft then d else if leastRight then b else c
  if less right left then [least, right, left, greatest] else [least, left, right, greatest]

def sortQuad {α : Type} (less : Less α) : List α → List α
  | [v, w, x, y] => sortFour less v w x y
  | items => items

/-- The beginning of a half of a list with `count` items, in order, and the number of its items. -/
def sortStart? {α : Type} (less : Less α) (count : Nat) (half : List α) : Option (Nat × List α) :=
  if 16 ≤ count then
    (mergeHalves? less (sortQuad less (half.take 4) ++ sortQuad less ((half.drop 4).take 4))).map
      (8, ·)
  else if 8 ≤ count then some (4, sortQuad less (half.take 4))
  else some (1, half.take 1)

def sortHalf? {α : Type} (less : Less α) (count : Nat) (half : List α) : Option (List α) :=
  (sortStart? less count half).map fun start => insertAll less start.2 (half.drop start.1)

def most : Nat := 32

def sort? {α : Type} (less : Less α) (items : List α) : Option (List α) :=
  let count := items.length
  if count < 2 then some items
  else do
    let left ← sortHalf? less count (items.take (count / 2))
    let right ← sortHalf? less count (items.drop (count / 2))
    mergeHalves? less (left ++ right)

end Few

end SessionCourier.Sorting
