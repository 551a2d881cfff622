import Mathlib.Data.Int.Order.Basic
import Mathlib.Order.Nat
import Mathlib.Order.Compare

set_option autoImplicit false

namespace SessionCourier.Rounding

open Float.Model (UnpackedFloat)

theorem lt_iff_compare (x y : Float) :
    x < y ↔ x.toModel.unpack.compare y.toModel.unpack = some .lt := by
  have unfolded : (x < y) = (decide (x.toModel.unpack.lt y.toModel.unpack = true) = true) := rfl
  rw [unfolded, decide_eq_true_iff, UnpackedFloat.lt, beq_iff_eq]

theorem eq_iff_compare (x y : Float) :
    (x == y) = true ↔ x.toModel.unpack.compare y.toModel.unpack = some .eq := by
  have unfolded : (x == y) = (x.toModel.unpack.compare y.toModel.unpack == some .eq) := rfl
  rw [unfolded, beq_iff_eq]

theorem le_iff_compare (x y : Float) :
    x ≤ y ↔ x.toModel.unpack.compare y.toModel.unpack = some .lt ∨
      x.toModel.unpack.compare y.toModel.unpack = some .eq := by
  have unfolded : (x ≤ y) = (decide (x.toModel.unpack.le y.toModel.unpack = true) = true) := rfl
  rw [unfolded, decide_eq_true_iff, UnpackedFloat.le]
  cases x.toModel.unpack.compare y.toModel.unpack with
  | none => decide
  | some o => cases o <;> decide

theorem magnitude_lt_iff (e e' : Int) (m m' : Nat) :
    (compare e e').then (compare m m') = .lt ↔ e < e' ∨ e = e' ∧ m < m' := by
  rw [Ordering.then_eq_lt, compare_lt_iff_lt, compare_lt_iff_lt, compare_eq_iff_eq]

theorem magnitude_gt_iff (e e' : Int) (m m' : Nat) :
    (compare e e').then (compare m m') = .gt ↔ e' < e ∨ e = e' ∧ m' < m := by
  rw [Ordering.then_eq_gt, compare_gt_iff_gt, compare_gt_iff_gt, compare_eq_iff_eq]

end SessionCourier.Rounding
