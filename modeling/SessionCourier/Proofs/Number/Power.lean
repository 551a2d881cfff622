import Mathlib.Algebra.Order.Ring.Pow
import SessionCourier.Number.Power
import SessionCourier.Proofs.Number.Worth

set_option autoImplicit false

namespace SessionCourier.Rounding

open Power (accumulate power lesser)

/-- `w` has come out for the whole number `v` after `c` roundings at most. -/
structure Estimate (v c : ℕ) (w : ℚ) : Prop where
  exact : v < 2 ^ 53 → w = v
  beyond : 2 ^ 53 ≤ v → 2 ^ 53 ≤ w
  below : v * (1 - unit) ^ c ≤ w
  above : w ≤ v * (1 + unit) ^ c

variable {v v' c c' : ℕ} {w w' r : ℚ}

theorem Estimate.refl (v : ℕ) : Estimate v 0 v where
  exact _ := rfl
  beyond large := by exact_mod_cast large
  below := by rw [pow_zero, mul_one]
  above := by rw [pow_zero, mul_one]

theorem Estimate.one_le (known : Estimate v c w) (one : 1 ≤ v) : 1 ≤ w := by
  rcases Nat.lt_or_ge v (2 ^ 53) with small | large
  · rw [known.exact small]
    exact_mod_cast one
  · exact le_trans (by norm_num) (known.beyond large)

theorem Estimate.mul (known : Estimate v c w) (known' : Estimate v' c' w') (one : 1 ≤ v)
    (one' : 1 ≤ v') (rounds : Rounds (w * w') r) : Estimate (v * v') (c + c' + 1) r := by
  have least := known.one_le one
  have least' := known'.one_le one'
  have u_small : 0 ≤ 1 - unit := by norm_num [unit]
  have u_nonneg : 0 ≤ 1 + unit := by norm_num [unit]
  refine ⟨?_, ?_, ?_, ?_⟩
  · intro small
    have first : v < 2 ^ 53 := lt_of_le_of_lt (Nat.le_mul_of_pos_right v one') small
    have second : v' < 2 ^ 53 := lt_of_le_of_lt (Nat.le_mul_of_pos_left v' one) small
    refine rounds.whole (v * v') small ?_
    rw [known.exact first, known'.exact second]
    push_cast
    rfl
  · intro large
    have large : (2 : ℚ) ^ 53 ≤ w * w' := by
      rcases Nat.lt_or_ge v (2 ^ 53) with first | first
      · rcases Nat.lt_or_ge v' (2 ^ 53) with second | second
        · rw [known.exact first, known'.exact second]
          exact_mod_cast large
        · exact (known'.beyond second).trans (le_mul_of_one_le_left (by linarith) least)
      · exact (known.beyond first).trans (le_mul_of_one_le_right (by linarith) least')
    exact_mod_cast rounds.power 53 (by exact_mod_cast large)
  · calc ((v * v' : ℕ) : ℚ) * (1 - unit) ^ (c + c' + 1)
        = (v * (1 - unit) ^ c) * (v' * (1 - unit) ^ c') * (1 - unit) := by push_cast; ring
      _ ≤ w * w' * (1 - unit) := by
        refine mul_le_mul_of_nonneg_right ?_ u_small
        exact mul_le_mul known.below known'.below (by positivity) (by linarith)
      _ ≤ r := rounds.below
  · calc r ≤ w * w' * (1 + unit) := rounds.above
      _ ≤ (v * (1 + unit) ^ c) * (v' * (1 + unit) ^ c') * (1 + unit) := by
        refine mul_le_mul_of_nonneg_right ?_ u_nonneg
        exact mul_le_mul known.above known'.above (by linarith) (by positivity)
      _ = ((v * v' : ℕ) : ℚ) * (1 + unit) ^ (c + c' + 1) := by push_cast; ring

/-- A float that has come out for a whole number, whether it is finite or not. -/
def Stands (x : Float) (v c : ℕ) : Prop := ∃ w, IsWorth x (clip w) ∧ Estimate v c w

variable {x y : Float}

theorem Stands.mul (first : Stands x v c) (second : Stands y v' c') (one : 1 ≤ v) (one' : 1 ≤ v') :
    Stands (x * y) (v * v') (c + c' + 1) := by
  obtain ⟨w, worth, known⟩ := first
  obtain ⟨w', worth', known'⟩ := second
  obtain ⟨r, rounds, product⟩ := isWorth_mul worth worth' (known.one_le one) (known'.one_le one')
  exact ⟨r, product, known.mul known' one one' rounds⟩

theorem stands_lowest_bit {product square : Float} (first : Stands product v c)
    (second : Stands square v' c') (one : 1 ≤ v) (one' : 1 ≤ v') (e : ℕ) :
    Stands (if e % 2 = 1 then product * square else product) (v * v' ^ (e % 2))
      (c + e % 2 * (c' + 1)) := by
  by_cases odd : e % 2 = 1
  · rw [if_pos odd, odd, pow_one, Nat.one_mul, ← Nat.add_assoc]
    exact first.mul second one one'
  · have even : e % 2 = 0 := by omega
    rw [if_neg odd, even, pow_zero, Nat.mul_one, Nat.zero_mul, Nat.add_zero]
    exact first

/-- The square stands for the power that belongs to the lowest bit left, so the exponent and the
number of roundings are taken apart in the same way. -/
theorem stands_accumulate {product square : Float} {e : ℕ} (first : Stands product v c)
    (second : Stands square v' c') (one : 1 ≤ v) (one' : 1 ≤ v') :
    Stands (accumulate product square e) (v * v' ^ e) (c + e * (c' + 1)) := by
  induction e using Nat.strong_induction_on generalizing product square v v' c c' with
  | h e ih =>
    have bit := stands_lowest_bit first second one one' e
    rw [accumulate]
    by_cases last : e / 2 = 0
    · have all : e % 2 = e := by omega
      rw [if_pos last]
      rwa [all] at bit ⊢
    · have squared := second.mul second one' one'
      have fewer : e / 2 < e := by omega
      have rest := ih (e / 2) fewer bit squared (Nat.mul_pos one (Nat.pow_pos one'))
        (Nat.mul_pos one' one')
      have halves : e = e % 2 + 2 * (e / 2) := (Nat.mod_add_div e 2).symm
      have power : v * v' ^ (e % 2) * (v' * v') ^ (e / 2) = v * v' ^ e := by
        rw [← pow_two, ← pow_mul, Nat.mul_assoc, ← pow_add, ← halves]
      have roundings : c + e % 2 * (c' + 1) + e / 2 * (c' + c' + 1 + 1) = c + e * (c' + 1) := by
        generalize e % 2 = bit, e / 2 = half at halves
        rw [halves]
        ring
      rw [if_neg last, ← power, ← roundings]
      exact rest

theorem isWorth_one : IsWorth 1.0 (1 : ℚ) := by
  have unpacked : (1.0 : Float).toModel.unpack = .finite .positive (2 ^ 52) (-52) (by decide) := by
    rfl
  have same : amount (2 ^ 52) (-52) = 1 := by norm_num [amount]
  rw [← same]
  exact isWorth_of_unpack unpacked

theorem IsWorth.stands {x : Float} (worth : IsWorth x (v : ℚ)) (small : (v : ℚ) < 2 ^ 1024) :
    Stands x v 0 := ⟨v, by rwa [clip_eq_coe small], .refl v⟩

theorem stands_power {x : Float} (stands : Stands x v 0) (one : 1 ≤ v) (e : ℕ) :
    Stands (power x e) (v ^ e) e := by
  have start : Stands 1.0 1 0 :=
    IsWorth.stands (by exact_mod_cast isWorth_one) (by exact_mod_cast one_lt_pow₀ one_lt_two (by decide))
  have result := stands_accumulate (e := e) start stands (le_refl 1) one
  rwa [Nat.one_mul, Nat.zero_add, Nat.zero_add, Nat.mul_one] at result

theorem few_roundings {c : ℕ} (few : c ≤ 2 ^ 31) :
    3 / 4 ≤ (1 - unit) ^ c ∧ (1 + unit) ^ c ≤ 4 / 3 := by
  have few : (c : ℚ) ≤ 2 ^ 31 := by exact_mod_cast few
  have u_pos := unit_pos
  have shrunk : 3 / 4 ≤ (1 - unit) ^ c := by
    have bernoulli := one_add_mul_le_pow (a := -unit) (by norm_num [unit]) c
    have : (c : ℚ) * unit ≤ 1 / 4 := by
      unfold unit
      linarith
    rw [← sub_eq_add_neg] at bernoulli
    linarith
  have both : (1 + unit) ^ c * (1 - unit) ^ c ≤ 1 := by
    rw [← mul_pow]
    exact pow_le_one₀ (by norm_num [unit]) (by norm_num [unit])
  have grown : 0 < (1 + unit) ^ c := by positivity
  exact ⟨shrunk, by nlinarith⟩

/-- A greater power comes out greater, in spite of the roundings. -/
theorem Estimate.le_of_power {n e e' : ℕ} (known : Estimate (n ^ e) e w)
    (known' : Estimate (n ^ e') e' w') (two : 2 ≤ n) (less : e < e') (few : e' ≤ 2 ^ 31) :
    w ≤ w' := by
  have grown := (few_roundings (less.le.trans few)).2
  have shrunk := (few_roundings few).1
  have twice : 2 * n ^ e ≤ n ^ e' := by
    calc 2 * n ^ e ≤ n * n ^ e := Nat.mul_le_mul_right _ two
      _ = n ^ (e + 1) := (Nat.pow_succ').symm
      _ ≤ n ^ e' := Nat.pow_le_pow_right (by omega) less
  have twice : 2 * ((n ^ e : ℕ) : ℚ) ≤ (n ^ e' : ℕ) := by exact_mod_cast twice
  have nonneg : (0 : ℚ) ≤ (n ^ e : ℕ) := by positivity
  calc w ≤ (n ^ e : ℕ) * (1 + unit) ^ e := known.above
    _ ≤ (n ^ e : ℕ) * (4 / 3) := mul_le_mul_of_nonneg_left grown nonneg
    _ ≤ (n ^ e' : ℕ) * (3 / 4) := by linarith
    _ ≤ (n ^ e' : ℕ) * (1 - unit) ^ e' := mul_le_mul_of_nonneg_left shrunk (by positivity)
    _ ≤ w' := known'.below

theorem Stands.isInf_mono {n e e' : ℕ} (first : Stands x (n ^ e) e) (second : Stands y (n ^ e') e')
    (one : 1 ≤ n) (less : e < e') (few : e' ≤ 2 ^ 31) (infinite : x.isInf = true) :
    y.isInf = true := by
  obtain ⟨w, worth, known⟩ := first
  obtain ⟨w', worth', known'⟩ := second
  have large : 2 ^ 1024 ≤ w := clip_eq_top_iff.mp (worth.isInf.mp infinite)
  rcases one.lt_or_eq with two | rfl
  · have grown := known.le_of_power known' two less few
    exact worth'.isInf.mpr (clip_eq_top (large.trans grown))
  · -- One stays one.
    have stays : w = 1 := by
      rw [known.exact (by rw [Nat.one_pow]; norm_num), Nat.one_pow, Nat.cast_one]
    have above : (1 : ℚ) < 2 ^ 1024 := one_lt_pow₀ one_lt_two (by decide)
    rw [stays] at large
    exact absurd large (not_le.mpr above)

theorem isWorth_lesser {z z' : WithTop ℚ} (first : IsWorth x z) (second : IsWorth y z') :
    IsWorth (lesser x y) (min z z') := by
  have number : x.isNaN = false := first.isNaN
  have number' : y.isNaN = false := second.isNaN
  rw [lesser, number, number']
  by_cases less : x < y
  · rw [min_eq_left ((lt_iff_worth first second).mp less).le]
    simpa only [Bool.false_eq_true, if_false, if_pos less] using first
  · rw [min_eq_right (not_lt.mp (mt (lt_iff_worth first second).mpr less))]
    simpa only [Bool.false_eq_true, if_false, if_neg less] using second

end SessionCourier.Rounding
