import SessionCourier.Sorting.Runs

set_option autoImplicit false

/-!
# Stable sorting

Items of which neither is less keep their order. Up to twenty items are inserted one by one; longer
lists are sorted by runs, and long pieces without runs by partition around a pivot. For an order the
result is the one sorted list that keeps equal items as they stand. For a comparison that is no order
the result depends on which items are compared, so the way is laid down here; the sort has no result
if the comparison is found to contradict itself.
-/

namespace SessionCourier.Sorting

variable {α : Type}

structure Placed (α : Type) where
  item : α
  place : Nat

def Placed.median (less : Less α) (a b c : Placed α) : Placed α :=
  if less a.item b.item = less a.item c.item then
    if less b.item c.item = less a.item b.item then b else c
  else a

/-- An item near the middle of `count` items from `start`: the median of three that lie an eighth,
four eighths and seven eighths on, each found in the same way among an eighth of the items. -/
def pivot? (less : Less α) (items : Array α) (start count : Nat) : Option (Placed α) :=
  if count < 8 then (items[start]?).map (⟨·, start⟩)
  else
    let part := count / 8
    do
      let a ← pivot? less items start part
      let b ← pivot? less items (start + part * 4) part
      let c ← pivot? less items (start + part * 7) part
      return .median less a b c
termination_by count

/-- Cuts a list in two by a test of its items; the item at `place` goes where `placeLeft` says. -/
def divide (test : α → Bool) (place : Nat) (placeLeft : Bool) (items : List α) : List α × List α :=
  let parts := items.zipIdx.partition fun x => if x.2 = place then placeLeft else test x.1
  (parts.1.map (·.1), parts.2.map (·.1))

/-- Sorts by partition; all items are known not to be less than `floor`. A pivot that is not above
the floor, or that no item is below, stands for the least item, and all that equal it come first.
After `limit` partitions, what is left is sorted by runs. -/
def partitionSort? (less : Less α) : Nat → Option α → List α → Option (List α)
  | 0, _, items =>
    if items.length ≤ Few.most then Few.sort? less items else Run.sort? ⟨less, true, some⟩ items
  | limit + 1, floor, items =>
    if items.length ≤ Few.most then Few.sort? less items
    else do
      let pivot ← pivot? less items.toArray 0 items.length
      let (below, above) := divide (fun x => less x pivot.item) pivot.place false items
      let isFloor := match floor with | some f => !less f pivot.item | none => false
      if isFloor || below.isEmpty then
        let (equal, above) := divide (fun x => !less pivot.item x) pivot.place true items
        return equal ++ (← partitionSort? less limit none above)
      else
        let above ← partitionSort? less limit (some pivot.item) above
        return (← partitionSort? less limit floor below) ++ above

def partitionLimit (count : Nat) : Nat := 2 * count.log2

def stable? (less : Less α) (items : List α) : Option (List α) :=
  if items.length ≤ 20 then some (insertAll less [] items)
  else
    let later (piece : List α) := partitionSort? less (partitionLimit piece.length) none piece
    Run.sort? ⟨less, items.length ≤ 2 * Few.most, later⟩ items

end SessionCourier.Sorting
