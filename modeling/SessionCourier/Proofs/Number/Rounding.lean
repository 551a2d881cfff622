import Mathlib.Algebra.Order.Field.Power
import Mathlib.Data.Nat.Log
import Mathlib.Tactic.Linarith
import Mathlib.Tactic.NormNum
import Mathlib.Tactic.Positivity
import Mathlib.Tactic.Ring

set_option autoImplicit false

/-!
# Rounding to 53 binary digits

A mantissa is rounded by cutting off its last digits and looking at what was cut off. Here only this
matters of the result: it is off by at most one of its last digits, whole numbers of 53 digits are not
changed, and no power of two is crossed. A mantissa of 53 digits may get one digit more by a carry,
which leaves a one before zeros, so cutting again changes nothing.
-/

namespace SessionCourier.Rounding

open Float.Model (UnpackedFloat Format totalExponent)
open Float.Model.UnpackedFloat

/-- What a mantissa and an exponent are worth together. -/
def amount (m : ℕ) (e : ℤ) : ℚ := m * 2 ^ e

/-- Relative size of the last of 53 binary digits. -/
def unit : ℚ := 1 / 2 ^ 52

theorem amount_shift (m k : ℕ) (e : ℤ) : amount (m * 2 ^ k) e = amount m (e + k) := by
  rw [amount, amount, zpow_add₀ (by norm_num : (2 : ℚ) ≠ 0), zpow_natCast]
  push_cast
  ring

theorem amount_mul (m m' : ℕ) (e e' : ℤ) : amount m e * amount m' e' = amount (m * m') (e + e') := by
  rw [amount, amount, amount, zpow_add₀ (by norm_num : (2 : ℚ) ≠ 0)]
  push_cast
  ring

theorem amount_pos {m : ℕ} (pos : 0 < m) (e : ℤ) : 0 < amount m e := by
  have real : (0 : ℚ) < m := by exact_mod_cast pos
  unfold amount
  positivity

theorem shiftRight_mantissa (em : ExtendedMantissa) (k : ℕ) :
    (em >>> k).mantissa = em.mantissa / 2 ^ k := by
  change (Nat.repeat ExtendedMantissa.shiftRightOne k em).mantissa = _
  induction k with
  | zero => exact (Nat.div_one em.mantissa).symm
  | succ k ih =>
    rw [Nat.repeat, ExtendedMantissa.shiftRightOne, ih, Nat.div_div_eq_div_mul, Nat.pow_succ]

abbrev plain (m : ℕ) : ExtendedMantissa := ⟨m, false, false⟩

theorem shiftRight_zeros (m k : ℕ) : plain (m * 2 ^ k) >>> k = plain m := by
  change Nat.repeat ExtendedMantissa.shiftRightOne k _ = _
  induction k generalizing m with
  | zero => rw [Nat.repeat, Nat.pow_zero, Nat.mul_one]
  | succ k ih =>
    have even : m * 2 ^ (k + 1) = m * 2 * 2 ^ k := by ring
    rw [Nat.repeat, even, ih, ExtendedMantissa.shiftRightOne]
    simp

theorem roundedMantissa_bounds (em : ExtendedMantissa) :
    em.mantissa ≤ em.roundedMantissa ∧ em.roundedMantissa ≤ em.mantissa + 1 := by
  obtain ⟨m, half, more⟩ := em
  cases half <;> cases more <;>
    simp only [ExtendedMantissa.roundedMantissa, ExtendedMantissa.accuracy,
      Accuracy.roundToNearestEven] <;> omega

/-- The mantissa without its last `k` digits, rounded. -/
def cut (m k : ℕ) : ℕ := (plain m >>> k).roundedMantissa

theorem cut_bounds (m k : ℕ) : m / 2 ^ k ≤ cut m k ∧ cut m k ≤ m / 2 ^ k + 1 := by
  have bounds := roundedMantissa_bounds (plain m >>> k)
  rwa [shiftRight_mantissa] at bounds

theorem cut_zeros (m k : ℕ) : cut (m * 2 ^ k) k = m := by
  rw [cut, shiftRight_zeros]
  rfl

/-- `r` is `p` rounded to 53 binary digits. -/
structure Rounds (p r : ℚ) : Prop where
  below : p * (1 - unit) ≤ r
  above : r ≤ p * (1 + unit)
  /-- Whole numbers of 53 digits stay as they are. -/
  whole : ∀ n : ℕ, n < 2 ^ 53 → p = n → r = n
  /-- A power of two is never crossed. -/
  power : ∀ k : ℤ, 2 ^ k ≤ p → 2 ^ k ≤ r

theorem unit_pos : 0 < unit := by norm_num [unit]

theorem unit_le : unit ≤ 1 / 4 := by norm_num [unit]

theorem Rounds.mul {p q r c : ℚ} (first : Rounds p r) (second : Rounds (r * c) q) (nonneg : 0 ≤ c) :
    p * c * (1 - unit) ^ 2 ≤ q ∧ q ≤ p * c * (1 + unit) ^ 2 := by
  have u_pos := unit_pos
  have u_le := unit_le
  constructor
  · calc p * c * (1 - unit) ^ 2 = p * (1 - unit) * (c * (1 - unit)) := by ring
      _ ≤ r * (c * (1 - unit)) :=
        mul_le_mul_of_nonneg_right first.below (mul_nonneg nonneg (by linarith))
      _ = r * c * (1 - unit) := by ring
      _ ≤ q := second.below
  · calc q ≤ r * c * (1 + unit) := second.above
      _ = r * (c * (1 + unit)) := by ring
      _ ≤ p * (1 + unit) * (c * (1 + unit)) :=
        mul_le_mul_of_nonneg_right first.above (mul_nonneg nonneg (by linarith))
      _ = p * c * (1 + unit) ^ 2 := by ring

theorem two_zpow_le_amount {m : ℕ} (pos : 0 < m) (e : ℤ) : 2 ^ ((m.log2 : ℤ) + e) ≤ amount m e := by
  have low : (2 : ℚ) ^ m.log2 ≤ m := by exact_mod_cast Nat.log2_self_le pos.ne'
  rw [amount, zpow_add₀ (by norm_num : (2 : ℚ) ≠ 0), zpow_natCast]
  exact mul_le_mul_of_nonneg_right low (by positivity)

theorem amount_lt_two_zpow (m : ℕ) (e : ℤ) : amount m e < 2 ^ ((m.log2 : ℤ) + 1 + e) := by
  have high : (m : ℚ) < 2 ^ (m.log2 + 1) := by exact_mod_cast Nat.lt_log2_self
  rw [amount, zpow_add₀ (by norm_num : (2 : ℚ) ≠ 0)]
  exact mul_lt_mul_of_pos_right (by exact_mod_cast high) (by positivity)

theorem cut_near (m k : ℕ) :
    m ≤ cut m k * 2 ^ k + 2 ^ k ∧ cut m k * 2 ^ k ≤ m + 2 ^ k := by
  obtain ⟨least, most⟩ := cut_bounds m k
  constructor
  · calc m ≤ m / 2 ^ k * 2 ^ k + 2 ^ k := (Nat.lt_div_mul_add (Nat.two_pow_pos k)).le
      _ ≤ cut m k * 2 ^ k + 2 ^ k := Nat.add_le_add_right (Nat.mul_le_mul_right _ least) _
  · calc cut m k * 2 ^ k ≤ (m / 2 ^ k + 1) * 2 ^ k := Nat.mul_le_mul_right _ most
      _ = m / 2 ^ k * 2 ^ k + 2 ^ k := Nat.succ_mul _ _
      _ ≤ m + 2 ^ k := Nat.add_le_add_right (Nat.div_mul_le_self m _) _

variable {m k : ℕ} {e : ℤ}

theorem log2_zeros (pos : 0 < m) (k : ℕ) : (m * 2 ^ k).log2 = m.log2 + k := by
  induction k with
  | zero => rw [Nat.pow_zero, Nat.mul_one, Nat.add_zero]
  | succ k ih =>
    have twice : m * 2 ^ (k + 1) = 2 * (m * 2 ^ k) := by ring
    have some_left : m * 2 ^ k ≠ 0 := (Nat.mul_pos pos (Nat.two_pow_pos k)).ne'
    rw [twice, Nat.log2_two_mul some_left, ih, Nat.add_assoc]

theorem pos_of_digits (digits : m.log2 = 52 + k) : 0 < m := by
  refine Nat.pos_of_ne_zero fun zero => ?_
  rw [zero, Nat.log2_zero] at digits
  omega

theorem low_of_digits (digits : m.log2 = 52 + k) : 2 ^ 52 * 2 ^ k ≤ m := by
  rw [← Nat.pow_add, ← digits]
  exact Nat.log2_self_le (pos_of_digits digits).ne'

theorem high_of_digits (digits : m.log2 = 52 + k) : m < 2 ^ 53 * 2 ^ k := by
  have high := Nat.lt_log2_self (n := m)
  rwa [digits, Nat.add_right_comm, Nat.pow_add] at high

theorem log2_eq_of_bounds (low : 2 ^ 52 * 2 ^ k ≤ m) (high : m < 2 ^ 53 * 2 ^ k) :
    m.log2 = 52 + k := by
  have pos : 0 < 2 ^ 52 * 2 ^ k := Nat.mul_pos (Nat.two_pow_pos 52) (Nat.two_pow_pos k)
  refine (Nat.log2_eq_iff (by omega)).mpr ⟨?_, ?_⟩
  · rwa [Nat.pow_add]
  · rwa [Nat.add_right_comm, Nat.pow_add]

theorem cut_digits (digits : m.log2 = 52 + k) : 2 ^ 52 ≤ cut m k ∧ cut m k ≤ 2 ^ 53 := by
  have low := (Nat.le_div_iff_mul_le (Nat.two_pow_pos k)).mpr (low_of_digits digits)
  have high := (Nat.div_lt_iff_lt_mul (Nat.two_pow_pos k)).mpr (high_of_digits digits)
  obtain ⟨least, most⟩ := cut_bounds m k
  omega

/-- A whole number of 53 digits has only zeros behind them. -/
theorem zeros_of_whole (digits : m.log2 = 52 + k) {n : ℕ} (small : n < 2 ^ 53)
    (same : amount m e = n) : ∃ j, m = j * 2 ^ k := by
  have bound : (2 : ℚ) ^ ((m.log2 : ℤ) + e) < 2 ^ (53 : ℤ) := by
    have small : (n : ℚ) < 2 ^ (53 : ℤ) := by exact_mod_cast small
    exact lt_of_le_of_lt (two_zpow_le_amount (pos_of_digits digits) e) (same ▸ small)
  have few := (zpow_lt_zpow_iff_right₀ (by norm_num : (1 : ℚ) < 2)).mp bound
  obtain ⟨i, rfl⟩ : ∃ i : ℕ, e = -(k + i : ℕ) := ⟨(-e - k).toNat, by omega⟩
  refine ⟨n * 2 ^ i, ?_⟩
  rw [amount, zpow_neg, zpow_natCast, mul_inv_eq_iff_eq_mul₀ (by positivity)] at same
  have same : m = n * 2 ^ (k + i) := by exact_mod_cast same
  rw [same, Nat.pow_add]
  ring

theorem rounds_cut (digits : m.log2 = 52 + k) (e : ℤ) :
    Rounds (amount m e) (amount (cut m k) (e + k)) := by
  have low := low_of_digits digits
  obtain ⟨short, long⟩ := cut_near m k
  have scale : (0 : ℚ) < 2 ^ e := by positivity
  have digit : (2 : ℚ) ^ k ≤ m * unit := by
    have low : (2 : ℚ) ^ 52 * 2 ^ k ≤ m := by exact_mod_cast low
    rw [unit]
    linarith
  rw [← amount_shift]
  refine ⟨?_, ?_, ?_, ?_⟩
  · have short : (m : ℚ) ≤ cut m k * 2 ^ k + 2 ^ k := by exact_mod_cast short
    rw [amount, amount, mul_right_comm]
    push_cast
    exact mul_le_mul_of_nonneg_right (by linarith) scale.le
  · have long : (cut m k : ℚ) * 2 ^ k ≤ m + 2 ^ k := by exact_mod_cast long
    rw [amount, amount, mul_right_comm]
    push_cast
    exact mul_le_mul_of_nonneg_right (by linarith) scale.le
  · intro n small same
    obtain ⟨j, rfl⟩ := zeros_of_whole digits small same
    rw [cut_zeros, same]
  · intro j le
    have under := (zpow_lt_zpow_iff_right₀ (by norm_num : (1 : ℚ) < 2)).mp
      (lt_of_le_of_lt le (amount_lt_two_zpow m e))
    have full : 2 ^ (52 + k) ≤ cut m k * 2 ^ k := by
      rw [Nat.pow_add]
      exact Nat.mul_le_mul_right _ (cut_digits digits).1
    calc (2 : ℚ) ^ j ≤ 2 ^ (((52 + k : ℕ) : ℤ) + e) :=
          zpow_le_zpow_right₀ (by norm_num) (by omega)
      _ = amount (2 ^ (52 + k)) e := by
          rw [amount, zpow_add₀ (by norm_num : (2 : ℚ) ≠ 0), zpow_natCast]
          push_cast
          rfl
      _ ≤ amount (cut m k * 2 ^ k) e := by
          unfold amount
          exact mul_le_mul_of_nonneg_right (by exact_mod_cast full) scale.le

/-- A mantissa of exactly 53 digits, at an exponent that is not too low. -/
structure Whole53 (m : ℕ) (e : ℤ) : Prop where
  low : 2 ^ 52 ≤ m
  high : m < 2 ^ 53
  exponent : -1074 ≤ e

theorem targetExponent_eq (m : ℕ) (e : ℤ) :
    Format.binary64.targetExponent (totalExponent m e) = max ((m.log2 : ℤ) + e - 52) (-1074) := by
  have digits : (Format.binary64.mantissaBits : ℤ) = 53 := rfl
  have least : Format.binary64.minExponent = -1074 := rfl
  rw [Format.targetExponent, totalExponent, digits, least]
  omega

theorem shift_eq (digits : m.log2 = 52 + k) (exponent : -1074 ≤ e + k) :
    shiftToTargetExponent .binary64 m e .exact = (plain m >>> k, e + k) := by
  have places : (max ((m.log2 : ℤ) + e - 52) (-1074) - e).toNat = k := by omega
  unfold shiftToTargetExponent
  rw [targetExponent_eq]
  unfold shiftToExponent
  simp only [places]
  rfl

theorem shift_zeros (fits : Whole53 m (e + k)) :
    shiftToTargetExponent .binary64 (m * 2 ^ k) e .exact = (plain m, e + k) := by
  have digits : (m * 2 ^ k).log2 = 52 + k := log2_eq_of_bounds
    (Nat.mul_le_mul_right _ fits.low) (Nat.mul_lt_mul_of_pos_right fits.high (Nat.two_pow_pos k))
  rw [shift_eq digits fits.exponent, shiftRight_zeros]

theorem round_eq (s : Sign) {r : ℕ} {t : ℤ} (pos : 0 < r)
    (shifts : shiftToTargetExponent .binary64 m e .exact = (plain m >>> k, e + k))
    (shifts' : shiftToTargetExponent .binary64 (cut m k) (e + k) .exact = (plain r, t)) :
    roundWithAccuracy .binary64 s m e .exact = .finite s r t pos := by
  unfold roundWithAccuracy
  rw [shifts]
  change (let (final, t) := shiftToTargetExponent .binary64 (cut m k) (e + k) .exact
    if h : final.mantissa = 0 then UnpackedFloat.zero s
    else .finite s final.mantissa t (Nat.pos_of_ne_zero h)) = _
  rw [shifts']
  exact dif_neg pos.ne'

theorem round_rounds (s : Sign) (digits : m.log2 = 52 + k) (exponent : -1074 ≤ e + k) :
    ∃ r t pos, roundWithAccuracy .binary64 s m e .exact = .finite s r t pos ∧ Whole53 r t ∧
      Rounds (amount m e) (amount r t) := by
  have rounds := rounds_cut digits e
  have shifts := shift_eq digits exponent
  obtain ⟨low, high⟩ := cut_digits digits
  rcases high.lt_or_eq with high | carry
  · have fits : Whole53 (cut m k) (e + k) := ⟨low, high, exponent⟩
    have shifts' := shift_zeros (k := 0) (e := e + k) (by simpa using fits)
    rw [Nat.pow_zero, Nat.mul_one, Nat.cast_zero, add_zero] at shifts'
    exact ⟨cut m k, e + k, by omega, round_eq s _ shifts shifts', fits, rounds⟩
  · -- The mantissa got one digit too many, a one before zeros only.
    have fits : Whole53 (2 ^ 52) (e + k + 1) := ⟨le_refl _, by norm_num, by omega⟩
    have shifts' := shift_zeros (k := 1) fits
    have same : amount (cut m k) (e + k) = amount (2 ^ 52) (e + k + 1) := by
      rw [carry]
      exact amount_shift (2 ^ 52) 1 (e + k)
    have carried : cut m k = 2 ^ 52 * 2 ^ 1 := carry
    rw [← carried] at shifts'
    exact ⟨2 ^ 52, e + k + 1, by norm_num, round_eq s _ shifts shifts', fits, same ▸ rounds⟩

theorem round_nat (s : Sign) (pos : 0 < m) :
    ∃ r t pos, UnpackedFloat.round .binary64 s m 0 = .finite s r t pos ∧ Whole53 r t ∧
      Rounds m (amount r t) := by
  have target : Format.binary64.targetExponent (totalExponent m 0) = (m.log2 : ℤ) - 52 := by
    rw [targetExponent_eq]
    omega
  have places : (0 - ((m.log2 : ℤ) - 52)).toNat = 52 - m.log2 := by omega
  have same : amount (m * 2 ^ (52 - m.log2)) (0 - (52 - m.log2 : ℕ)) = m := by
    rw [amount_shift, sub_add_cancel, amount, zpow_zero, mul_one]
  have digits : (m * 2 ^ (52 - m.log2)).log2 = 52 + (m.log2 - 52) := by
    rw [log2_zeros pos]
    omega
  have rounded := round_rounds (e := 0 - (52 - m.log2 : ℕ)) s digits (by omega)
  rw [same] at rounded
  rw [UnpackedFloat.round, target, decreaseExponent, places, Nat.shiftLeft_eq]
  exact rounded

end SessionCourier.Rounding
