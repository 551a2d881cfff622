import Mathlib.Data.Int.CharZero
import Mathlib.Data.Prod.Lex
import SessionCourier.Metrics.Store
import SessionCourier.Proofs.Number.Comparison
import SessionCourier.Proofs.Sorting.Keyed
import SessionCourier.Proofs.Sorting.Rearranged

set_option autoImplicit false

namespace SessionCourier.Metrics

open Float.Model (UnpackedFloat)
open Float.Model.UnpackedFloat (Sign)
open Rounding (lt_iff_compare eq_iff_compare le_iff_compare magnitude_lt_iff magnitude_gt_iff)

/-- Class, exponent and mantissa, of which the first that differs decides. Both zeros stand alike. -/
abbrev Standing := Int ×ₗ Int ×ₗ Int

def standingOf : UnpackedFloat → Standing
  | .notANumber => toLex (0, toLex (0, 0))
  | .infinity .negative => toLex (-2, toLex (0, 0))
  | .finite .negative m e _ => toLex (-1, toLex (-e, -m))
  | .zero _ => toLex (0, toLex (0, 0))
  | .finite .positive m e _ => toLex (1, toLex (e, m))
  | .infinity .positive => toLex (2, toLex (0, 0))

def standing (x : Float) : Standing := standingOf x.toModel.unpack

theorem standing_lt_iff (c e m c' e' m' : Int) :
    (toLex (c, toLex (e, m)) : Standing) < toLex (c', toLex (e', m')) ↔
      c < c' ∨ c = c' ∧ (e < e' ∨ e = e' ∧ m < m') := by
  simp only [Prod.Lex.toLex_lt_toLex]

theorem standingOf_lt {a b : UnpackedFloat} (number : a.isNaN = false) (number' : b.isNaN = false) :
    a.compare b = some .lt ↔ standingOf a < standingOf b := by
  cases a with
  | notANumber => cases number
  | infinity s =>
    cases b with
    | notANumber => cases number'
    | infinity t =>
      cases s <;> cases t <;> dsimp only [UnpackedFloat.compare, standingOf] <;>
        simp [standing_lt_iff]
      rfl
    | zero t =>
      cases s <;> dsimp only [UnpackedFloat.compare, standingOf] <;> simp [standing_lt_iff]
    | finite t =>
      cases s <;> cases t <;> dsimp only [UnpackedFloat.compare, standingOf] <;>
        simp [standing_lt_iff]
  | zero s =>
    cases b with
    | notANumber => cases number'
    | infinity t =>
      cases t <;> dsimp only [UnpackedFloat.compare, standingOf] <;> simp [standing_lt_iff]
    | zero t =>
      dsimp only [UnpackedFloat.compare, standingOf]
      simp
    | finite t =>
      cases t <;> dsimp only [UnpackedFloat.compare, standingOf] <;> simp [standing_lt_iff]
  | finite s =>
    cases b with
    | notANumber => cases number'
    | infinity t =>
      cases s <;> cases t <;> dsimp only [UnpackedFloat.compare, standingOf] <;>
        simp [standing_lt_iff]
    | zero t =>
      cases s <;> dsimp only [UnpackedFloat.compare, standingOf] <;> simp [standing_lt_iff]
    | finite t =>
      cases s <;> cases t <;> dsimp only [UnpackedFloat.compare, standingOf] <;>
        simp [standing_lt_iff, magnitude_lt_iff, magnitude_gt_iff]

theorem standingOf_eq {a b : UnpackedFloat} (number : a.isNaN = false) (number' : b.isNaN = false) :
    a.compare b = some .eq ↔ standingOf a = standingOf b := by
  cases a with
  | notANumber => cases number
  | infinity s =>
    cases b with
    | notANumber => cases number'
    | infinity t => cases s <;> cases t <;> decide
    | zero t => cases s <;> dsimp only [UnpackedFloat.compare, standingOf] <;> simp
    | finite t => cases s <;> cases t <;> dsimp only [UnpackedFloat.compare, standingOf] <;> simp
  | zero s =>
    cases b with
    | notANumber => cases number'
    | infinity t => cases t <;> dsimp only [UnpackedFloat.compare, standingOf] <;> simp
    | zero t =>
      dsimp only [UnpackedFloat.compare, standingOf]
      simp
    | finite t => cases t <;> dsimp only [UnpackedFloat.compare, standingOf] <;> simp
  | finite s =>
    cases b with
    | notANumber => cases number'
    | infinity t => cases s <;> cases t <;> dsimp only [UnpackedFloat.compare, standingOf] <;> simp
    | zero t => cases s <;> dsimp only [UnpackedFloat.compare, standingOf] <;> simp
    | finite t =>
      cases s <;> cases t <;> dsimp only [UnpackedFloat.compare, standingOf] <;>
        simp [Ordering.then_eq_eq]

def Numbers (values : List Float) : Prop := ∀ x ∈ values, x.isNaN = false

instance : DecidablePred Numbers := fun values =>
  inferInstanceAs (Decidable (∀ x ∈ values, x.isNaN = false))

theorem Numbers.of_perm {values values' : List Float} (numbers : Numbers values)
    (perm : values'.Perm values) : Numbers values' := by
  intro x mem
  exact numbers x (perm.mem_iff.mp mem)

theorem Numbers.left {values more : List Float} (numbers : Numbers (values ++ more)) :
    Numbers values := by
  intro x mem
  exact numbers x (List.mem_append_left _ mem)

theorem lt_iff_standing {x y : Float} (number : x.isNaN = false) (number' : y.isNaN = false) :
    x < y ↔ standing x < standing y :=
  (lt_iff_compare x y).trans (standingOf_lt number number')

theorem eq_iff_standing {x y : Float} (number : x.isNaN = false) (number' : y.isNaN = false) :
    (x == y) = true ↔ standing x = standing y :=
  (eq_iff_compare x y).trans (standingOf_eq number number')

theorem le_iff_standing {x y : Float} (number : x.isNaN = false) (number' : y.isNaN = false) :
    x ≤ y ↔ standing x ≤ standing y := by
  rw [le_iff_compare, standingOf_lt number number', standingOf_eq number number']
  exact le_iff_lt_or_eq.symm

theorem ascending_numbers {values : List Float} (numbers : Numbers values) :
    ascending values = values.mergeSort (Sorting.byKey standing) := by
  have agree : ∀ x ∈ values, ∀ y ∈ values,
      (!decide (y < x)) = Sorting.byKey standing x y := by
    intro x hx y hy
    rw [Sorting.byKey, ← decide_not]
    exact decide_eq_decide.mpr
      ((not_congr (lt_iff_standing (numbers y hy) (numbers x hx))).trans not_lt)
  have same := List.map_mergeSort (f := id) (r := fun x y => !decide (y < x)) agree
  rw [List.map_id, List.map_id] at same
  exact same

theorem ascending_perm (values : List Float) : (ascending values).Perm values :=
  List.mergeSort_perm _ _

/-- What follows values put into ascending order comes to stand as if all were put into it at
once. -/
theorem ascending_append {values more : List Float} (numbers : Numbers (values ++ more)) :
    ascending (ascending values ++ more) = ascending (values ++ more) := by
  have again := numbers.of_perm ((ascending_perm values).append_right more)
  rw [ascending_numbers again, ascending_numbers numbers.left, ascending_numbers numbers,
    Sorting.mergeSort_append]

theorem pairwise_ascending {values : List Float} (numbers : Numbers values) :
    (ascending values).Pairwise fun x y => ¬ y < x := by
  have sorted := numbers.of_perm (ascending_perm values)
  rw [ascending_numbers numbers] at sorted ⊢
  refine (Sorting.pairwise_mergeSort standing values).imp_of_mem fun hx hy le less => ?_
  have less := (lt_iff_standing (sorted _ hy) (sorted _ hx)).mp less
  exact absurd less (not_lt.mpr le)

theorem ascending?_numbers {values : List Float} (numbers : Numbers values) :
    ascending? values = some (ascending values) := by
  apply if_neg
  rw [Bool.not_eq_true]
  apply List.any_eq_false.mpr
  intro x mem
  rw [numbers x mem]
  exact Bool.false_ne_true

@[simp] theorem ascending?_nil : ascending? [] = some [] := by
  have none_yet : ascending [] = [] := List.perm_nil.mp (ascending_perm [])
  rw [ascending?_numbers (by decide), none_yet]

theorem ascending?_perm {values sorted : List Float} (sorts : ascending? values = some sorted) :
    sorted.Perm values := by
  unfold ascending? at sorts
  split at sorts
  · exact Sorting.stable?_perm sorts
  · rw [← Option.some.inj sorts]
    exact ascending_perm values

/-- Few values are inserted one by one, and no comparison is ever held against another. -/
theorem ascending?_few {values : List Float} (few : values.length ≤ 20) :
    ∃ sorted, ascending? values = some sorted := by
  unfold ascending? Sorting.stable?
  rw [if_pos few]
  split
  · exact ⟨_, rfl⟩
  · exact ⟨_, rfl⟩

/-- What is no number ends the left half, and all of the right half is less than the other values of
the left. From the front the right half comes first, but from the back too. -/
def contradiction : List Float :=
  [101.0, 100.0, 102.0, 103.0, 104.0, 105.0, 106.0, 107.0, 108.0, 0.0 / 0.0] ++
    [1.0, 2.0, 3.0, 4.0, 5.0, 6.0, 7.0, 8.0, 9.0, 10.0, 11.0]

theorem ascending?_contradiction : ascending? contradiction = none := by
  have strange : contradiction.any Float.isNaN = true := by decide +kernel
  rw [ascending?, if_pos strange]
  apply Sorting.stable?_eq_none
  · decide
  · decide
  · decide +kernel
  · decide +kernel

/-- What a read may leave of the values of a histogram. Where a sort breaks off, they are all there,
but in no order that could be told. -/
inductive Disturbed (values : List Float) : List Float → Prop
  | untouched : Disturbed values values
  | sorted {after : List Float} : ascending? values = some after → Disturbed values after
  | strewn {after : List Float} : ascending? values = none → after.Perm values →
      Disturbed values after

theorem Disturbed.perm {values after : List Float} (disturbed : Disturbed values after) :
    after.Perm values := by
  cases disturbed with
  | untouched => exact .refl _
  | sorted sorts => exact ascending?_perm sorts
  | strewn _ perm => exact perm

theorem Disturbed.ascending_eq {values after : List Float} (disturbed : Disturbed values after)
    (numbers : Numbers values) : ascending after = ascending values := by
  cases disturbed with
  | untouched => rfl
  | sorted sorts =>
    rw [ascending?_numbers numbers, Option.some_inj] at sorts
    have again := @ascending_append values [] (by rwa [List.append_nil])
    rw [List.append_nil, List.append_nil] at again
    rw [← sorts, again]
  | strewn breaks =>
    rw [ascending?_numbers numbers] at breaks
    cases breaks

end SessionCourier.Metrics
