import SessionCourier.Delivery.Backoff
import SessionCourier.Proofs.Number.Power

set_option autoImplicit false

/-!
# How long to back off

With a whole factor, the delay is the initial interval times a power of the factor, up to the cap, as
if it were computed with whole numbers: a product that can be less than the cap has few enough digits
to be exact, and any other is at least the cap, however it was rounded. The one exception is a power
that is infinite as a float while there is no initial interval. Their product is no number, so the cap
is left, where nothing was to be waited.
-/

namespace SessionCourier.Settings.Retry

open Power (power lesser)
open Rounding

/-- The factor is the whole number `n`, and the intervals have at most 53 binary digits. -/
structure Whole (r : Retry) (n : ℕ) : Prop where
  factor : IsWorth r.backoffFactor (n : ℚ)
  one_le : 1 ≤ n
  initial : r.initialIntervalMs.toNat < 2 ^ 53
  cap : r.maxIntervalMs.toNat < 2 ^ 53

/-- Whether the power of the factor is no longer finite. -/
def overflows (r : Retry) (failures : UInt32) : Bool :=
  (power r.backoffFactor (exponent failures)).isInf

/-- The initial interval times a power of the factor, but not more than the cap. -/
def interval (r : Retry) (n e : ℕ) : ℕ :=
  min (r.initialIntervalMs.toNat * n ^ e) r.maxIntervalMs.toNat

variable {r : Retry} {n : ℕ} {f g : UInt32}

theorem exponent_le (f : UInt32) : exponent f ≤ 2 ^ 31 := by
  have most := Nat.min_le_right (f.toNat - 1) 0x7fffffff
  unfold exponent
  omega

theorem exponent_eq (few : f.toNat ≤ 2 ^ 31) : exponent f = f.toNat - 1 :=
  Nat.min_eq_left (by omega)

theorem exponent_mono (le : f ≤ g) : exponent f ≤ exponent g := by
  have le := UInt32.le_iff_toNat_le.mp le
  unfold exponent
  omega

theorem Whole.stands_power (whole : r.Whole n) (e : ℕ) : Stands (power r.backoffFactor e) (n ^ e) e :=
  Rounding.stands_power (whole.factor.stands whole.factor.lt) whole.one_le e

/-- The delay is the lesser of the product and the cap. If the product has more digits than are
exact, the cap is less in any case. -/
theorem Whole.delay_of_stands (whole : r.Whole n) {v c : ℕ} (stands : Stands (r.uncapped f) v c) :
    (r.delay f).toNat = min v r.maxIntervalMs.toNat := by
  obtain ⟨w, worth, known⟩ := stands
  have cap := whole.cap
  have capped : IsWorth (lesser (r.uncapped f) r.maxIntervalMs.toFloat)
      ((min v r.maxIntervalMs.toNat : ℕ) : ℚ) := by
    have lesser := isWorth_lesser worth (isWorth_word cap)
    rcases Nat.lt_or_ge v (2 ^ 53) with small | large
    · have finite : w < 2 ^ 1024 := by
        rw [known.exact small]
        have small : (v : ℚ) < 2 ^ 53 := by exact_mod_cast small
        exact small.trans (pow_lt_pow_right₀ one_lt_two (by decide))
      rw [clip_eq_coe finite, known.exact small] at lesser
      exact_mod_cast lesser
    · have above : ((r.maxIntervalMs.toNat : ℚ) : WithTop ℚ) ≤ clip w := by
        have cap : (r.maxIntervalMs.toNat : ℚ) < 2 ^ 53 := by exact_mod_cast cap
        have least := known.beyond large
        by_cases finite : w < 2 ^ 1024
        · rw [clip_eq_coe finite]
          exact_mod_cast cap.le.trans least
        · rw [clip_eq_top (not_lt.mp finite)]
          exact le_top
      rw [min_eq_right above] at lesser
      rwa [Nat.min_eq_right (by omega)]
  rw [delay, toUInt64_coe capped, Nat.floor_natCast]
  omega

theorem Whole.delay_of_initial (whole : r.Whole n) (some_left : r.initialIntervalMs ≠ 0) :
    (r.delay f).toNat = r.interval n (exponent f) := by
  have one : 1 ≤ r.initialIntervalMs.toNat := by
    refine Nat.one_le_iff_ne_zero.mpr fun zero => some_left ?_
    exact UInt64.toNat_inj.mp zero
  have initial := isWorth_word whole.initial
  have power := whole.stands_power (exponent f)
  have product := (initial.stands initial.lt).mul power one (Nat.one_le_pow _ _ whole.one_le)
  exact whole.delay_of_stands product

theorem Whole.delay_of_none (whole : r.Whole n) (none_left : r.initialIntervalMs = 0)
    (finite : ¬r.overflows f = true) : (r.delay f).toNat = 0 := by
  obtain ⟨w, worth, -⟩ := whole.stands_power (exponent f)
  have finite : clip w ≠ ⊤ := mt worth.isInf.mpr finite
  have product : IsWorth (r.uncapped f) ((0 : ℕ) : ℚ) := by
    rw [uncapped, none_left]
    exact_mod_cast isWorth_zero_mul isWorth_zero worth finite
  rw [whole.delay_of_stands (product.stands product.lt), Nat.zero_min]

/-- Otherwise the product is no number, and the cap is what is left. -/
theorem Whole.delay_of_overflow (whole : r.Whole n) (none_left : r.initialIntervalMs = 0)
    (infinite : r.overflows f = true) : (r.delay f).toNat = r.maxIntervalMs.toNat := by
  obtain ⟨w, worth, -⟩ := whole.stands_power (exponent f)
  have top : IsWorth (power r.backoffFactor (exponent f)) ⊤ := by
    rwa [worth.isInf.mp infinite] at worth
  have product : (r.uncapped f).isNaN = true := by
    rw [uncapped, none_left]
    exact isNaN_zero_mul_top isWorth_zero top
  have cap := whole.cap
  rw [delay, lesser, if_pos product, toUInt64_coe (isWorth_word cap), Nat.floor_natCast]
  omega

theorem Whole.overflows_mono (whole : r.Whole n) (le : f ≤ g) (infinite : r.overflows f = true) :
    r.overflows g = true := by
  rcases (exponent_mono le).lt_or_eq with less | same
  · exact (whole.stands_power (exponent f)).isInf_mono (whole.stands_power (exponent g))
      whole.one_le less (exponent_le g) infinite
  · unfold overflows
    rwa [← same]

theorem interval_of_none (none_left : r.initialIntervalMs = 0) (e : ℕ) : r.interval n e = 0 := by
  rw [interval, none_left, UInt64.toNat_zero, Nat.zero_mul, Nat.zero_min]

theorem interval_le (r : Retry) (n e : ℕ) : r.interval n e ≤ r.maxIntervalMs.toNat :=
  Nat.min_le_right _ _

theorem Whole.interval_mono (whole : r.Whole n) {e e' : ℕ} (le : e ≤ e') :
    r.interval n e ≤ r.interval n e' := by
  have power : n ^ e ≤ n ^ e' := Nat.pow_le_pow_right whole.one_le le
  have product := Nat.mul_le_mul_left r.initialIntervalMs.toNat power
  unfold interval
  omega

/-- For any number of failures, the delay is the interval unless there is no initial interval and
the power of the factor is no longer finite. -/
theorem Whole.delay_eq (whole : r.Whole n) (f : UInt32) :
    (¬(r.initialIntervalMs = 0 ∧ r.overflows f) → (r.delay f).toNat = r.interval n (exponent f)) ∧
      (r.initialIntervalMs = 0 ∧ r.overflows f → (r.delay f).toNat = r.maxIntervalMs.toNat) := by
  refine ⟨fun usual => ?_, fun strange => whole.delay_of_overflow strange.1 strange.2⟩
  by_cases none_left : r.initialIntervalMs = 0
  · have finite : ¬r.overflows f = true := fun infinite => usual ⟨none_left, infinite⟩
    rw [whole.delay_of_none none_left finite, interval_of_none none_left]
  · exact whole.delay_of_initial none_left

theorem Whole.delay_le (whole : r.Whole n) (f : UInt32) :
    (r.delay f).toNat ≤ r.maxIntervalMs.toNat := by
  by_cases strange : r.initialIntervalMs = 0 ∧ r.overflows f
  · exact ((whole.delay_eq f).2 strange).le
  · rw [(whole.delay_eq f).1 strange]
    exact interval_le r n _

theorem Whole.delay_mono (whole : r.Whole n) (le : f ≤ g) : r.delay f ≤ r.delay g := by
  rw [UInt64.le_iff_toNat_le]
  by_cases strange : r.initialIntervalMs = 0 ∧ r.overflows g
  · rw [(whole.delay_eq g).2 strange]
    exact whole.delay_le f
  · have usual : ¬(r.initialIntervalMs = 0 ∧ r.overflows f) := fun strange' =>
      strange ⟨strange'.1, whole.overflows_mono le strange'.2⟩
    rw [(whole.delay_eq f).1 usual, (whole.delay_eq g).1 strange]
    exact whole.interval_mono (exponent_mono le)

theorem Whole.not_overflows (whole : r.Whole n) (small : n ^ exponent f ≤ 2 ^ 1023) :
    ¬r.overflows f = true := by
  obtain ⟨w, worth, known⟩ := whole.stands_power (exponent f)
  have grown := (few_roundings (exponent_le f)).2
  have small : ((n ^ exponent f : ℕ) : ℚ) ≤ 2 ^ 1023 := by exact_mod_cast small
  have bound : w < 2 ^ 1024 := by
    calc w ≤ (n ^ exponent f : ℕ) * (1 + unit) ^ exponent f := known.above
      _ ≤ (n ^ exponent f : ℕ) * (4 / 3) := mul_le_mul_of_nonneg_left grown (Nat.cast_nonneg _)
      _ ≤ 2 ^ 1023 * (4 / 3) := mul_le_mul_of_nonneg_right small (by norm_num)
      _ < 2 ^ 1023 * 2 := by
        have least : (4 / 3 : ℚ) < 2 := by norm_num
        exact (mul_lt_mul_iff_right₀ (pow_pos two_pos 1023)).mpr least
      _ = 2 ^ 1024 := (pow_succ _ _).symm
  exact mt worth.isInf.mp (mt clip_eq_top_iff.mp (not_le.mpr bound))

theorem Whole.overflows_of_large (whole : r.Whole n) (large : 2 ^ 1025 ≤ n ^ exponent f) :
    r.overflows f = true := by
  obtain ⟨w, worth, known⟩ := whole.stands_power (exponent f)
  have shrunk := (few_roundings (exponent_le f)).1
  have large : (2 : ℚ) ^ 1025 ≤ (n ^ exponent f : ℕ) := by exact_mod_cast large
  have bound : 2 ^ 1024 ≤ w := by
    calc (2 : ℚ) ^ 1024 ≤ 2 ^ 1024 * (2 * (3 / 4)) :=
        le_mul_of_one_le_right (pow_pos two_pos 1024).le (by norm_num)
      _ = 2 ^ 1025 * (3 / 4) := by rw [pow_succ _ 1024, mul_assoc]
      _ ≤ (n ^ exponent f : ℕ) * (3 / 4) := mul_le_mul_of_nonneg_right large (by norm_num)
      _ ≤ (n ^ exponent f : ℕ) * (1 - unit) ^ exponent f :=
        mul_le_mul_of_nonneg_left shrunk (Nat.cast_nonneg _)
      _ ≤ w := known.below
  exact worth.isInf.mpr (clip_eq_top bound)

/-- With a whole factor, the delay after `f` failures in a row is the initial interval times a power
of the factor, but not more than the cap; there is one exception, and then it is the cap. It is met
only without an initial interval, and only when the power is no longer finite as a float, which it
is below `2 ^ 1024`, up to a factor of two, and is not from there on. The delay is never more than
the cap and never less than after fewer failures. -/
theorem delay_of_whole_factor (r : Retry) (n : ℕ) (whole : r.Whole n) :
    (∀ f : UInt32, 1 ≤ f.toNat → f.toNat ≤ 2 ^ 31 →
      (r.delay f).toNat =
        if r.initialIntervalMs = 0 ∧ r.overflows f = true then r.maxIntervalMs.toNat
        else min (r.initialIntervalMs.toNat * n ^ (f.toNat - 1)) r.maxIntervalMs.toNat) ∧
    (∀ f : UInt32, 1 ≤ f.toNat → f.toNat ≤ 2 ^ 31 →
      (n ^ (f.toNat - 1) ≤ 2 ^ 1023 → r.overflows f = false) ∧
      (2 ^ 1025 ≤ n ^ (f.toNat - 1) → r.overflows f = true)) ∧
    (∀ f, r.delay f ≤ r.maxIntervalMs) ∧
    ∀ f g, f ≤ g → r.delay f ≤ r.delay g := by
  refine ⟨?_, ?_, ?_, ?_⟩
  · intro f _ few
    rw [← exponent_eq few]
    split
    · exact (whole.delay_eq f).2 ‹_›
    · exact (whole.delay_eq f).1 ‹_›
  · intro f _ few
    rw [← exponent_eq few]
    exact ⟨fun small => Bool.eq_false_iff.mpr (whole.not_overflows small), whole.overflows_of_large⟩
  · intro f
    exact UInt64.le_iff_toNat_le.mpr (whole.delay_le f)
  · intro f g le
    exact whole.delay_mono le

theorem isWorth_two : IsWorth 2.0 ((2 : ℕ) : ℚ) := by
  have unpacked : (2.0 : Float).toModel.unpack = .finite .positive (2 ^ 52) (-51) (by decide) := by
    rfl
  have same : amount (2 ^ 52) (-51) = (2 : ℕ) := by norm_num [amount]
  rw [← same]
  exact isWorth_of_unpack unpacked

theorem delay_of_whole_factor_default :
    Retry.default.Whole 2 ∧ (Retry.default.delay 3).toNat = 2000 ∧
      (Retry.default.delay 8).toNat = 30000 := by
  have whole : Retry.default.Whole 2 := ⟨isWorth_two, by decide, by decide, by decide⟩
  obtain ⟨delays, -⟩ := delay_of_whole_factor Retry.default 2 whole
  exact ⟨whole, delays 3 (by decide) (by decide), delays 8 (by decide) (by decide)⟩

/-- Settings without an initial interval, which should therefore never wait. -/
def impatient : Retry := ⟨0, 2.0, 30000, 2000⟩

theorem waits_without_initial :
    impatient.Whole 2 ∧ (impatient.delay 1026).toNat = 30000 ∧ impatient.interval 2 1025 = 0 := by
  have whole : impatient.Whole 2 := ⟨isWorth_two, by decide, by decide, by decide⟩
  have power : exponent 1026 = 1025 := by decide
  have infinite : impatient.overflows 1026 = true := whole.overflows_of_large (by rw [power])
  exact ⟨whole, whole.delay_of_overflow rfl infinite, interval_of_none rfl 1025⟩

end SessionCourier.Settings.Retry
