set_option autoImplicit false

/-!
# Merging neighbouring runs

Two sorted runs that stand side by side become one. A comparison says whether an item is less than
another; of two items of which neither is less, the one on the left comes first. A comparison is
any function here. Where it is no order, a merge from both ends at once may find that the two ends
disagree, and then it has no result.
-/

namespace SessionCourier.Sorting

abbrev Less (α : Type) := α → α → Bool

/-- Merges from the side of the shorter run, at each step the item that belongs at that side. -/
def mergeRuns {α : Type} (less : Less α) (left right : List α) : List α :=
  if left.length ≤ right.length then left.merge right fun l r => !less r l
  else (right.reverse.merge left.reverse fun r l => !less r l).reverse

/-- What the first steps of a merge take, and what they leave of both runs. -/
structure Steps (α : Type) where
  taken : List α
  left : List α
  right : List α

def Steps.take {α : Type} (takesRight : α → α → Bool) : Nat → List α → List α → Steps α
  | n + 1, l :: ls, r :: rs =>
    if takesRight l r then
      let later := take takesRight n (l :: ls) rs
      { later with taken := r :: later.taken }
    else
      let later := take takesRight n ls (r :: rs)
      { later with taken := l :: later.taken }
  | _, ls, rs => ⟨[], ls, rs⟩

/-- Merges the two halves of a list from both ends at once. Each end takes as many items as the
left half has, and an item that is left over stands in the middle. The ends agree if each item of
the left half is taken once. -/
def mergeHalves? {α : Type} (less : Less α) (items : List α) : Option (List α) :=
  let half := items.length / 2
  let left := items.take half
  let right := items.drop half
  let front := Steps.take (fun l r => less r l) half left right
  let back := Steps.take (fun l r => !less r l) half left.reverse right.reverse
  let before := half - front.left.length
  let kept := back.left.length
  let odd := items.length % 2
  if before = kept then some (front.taken ++ front.right.take odd ++ back.taken.reverse)
  else if before + odd = kept then some (front.taken ++ front.left.take odd ++ back.taken.reverse)
  else none

end SessionCourier.Sorting
