import Mathlib.Algebra.Order.Floor.Semifield
import Mathlib.Data.Rat.Floor
import Mathlib.Order.WithBot
import SessionCourier.Proofs.Number.Comparison
import SessionCourier.Proofs.Number.Rounding

set_option autoImplicit false

namespace SessionCourier.Rounding

open Float.Model (UnpackedFloat Format totalExponent)
open Float.Model.UnpackedFloat

@[simp] theorem unpackSign_packComponents {spec : Format} (s : Sign)
    (exponent : BitVec spec.exponentBits) (mantissa : BitVec spec.mantissaBitsWithoutImplicit) :
    unpackSign (packComponents spec s exponent mantissa) = s.toBitVec := by
  delta unpackSign
  ext i low
  have zero : i = 0 := by omega
  subst zero
  simp [packComponents, BitVec.getLsbD_append, BitVec.getElem_append]

theorem ofBitVec_toBitVec (s : Sign) : Sign.ofBitVec s.toBitVec = s := by
  cases s <;> rfl

theorem leading_one (mantissa : BitVec 52) : (1#1 ++ mantissa).toNat = 2 ^ 52 + mantissa.toNat := by
  rw [BitVec.toNat_append, ← Nat.shiftLeft_add_eq_or_of_lt mantissa.isLt]
  rfl

variable {m : ℕ} {e : ℤ}

theorem finite_congr {s : Sign} {m m' : ℕ} {e e' : ℤ} {pos : 0 < m} {pos' : 0 < m'}
    (same : m = m') (same' : e = e') :
    UnpackedFloat.finite s m e pos = .finite s m' e' pos' := by
  subst same same'
  rfl

theorem unpack_of_exponent {x : BitVec 64} (low : @unpackExponent .binary64 x ≠ 0#11)
    (high : @unpackExponent .binary64 x ≠ -1#11) :
    ∃ pos, unpack .binary64 x = .finite (Sign.ofBitVec (@unpackSign .binary64 x))
      (2 ^ 52 + (@unpackMantissa .binary64 x).toNat)
      ((@unpackExponent .binary64 x).toNat - 1075) pos := by
  refine ⟨by omega, ?_⟩
  unfold unpack
  refine (if_neg high).trans ((if_neg low).trans ?_)
  exact finite_congr (leading_one _) rfl

theorem unpack_components (s : Sign) {exponent : BitVec 11} {mantissa : BitVec 52}
    (low : exponent ≠ 0#11) (high : exponent ≠ -1#11) :
    ∃ pos, unpack .binary64 (packComponents .binary64 s exponent mantissa) =
      .finite s (2 ^ 52 + mantissa.toNat) (exponent.toNat - 1075) pos := by
  have field : @unpackExponent .binary64 (packComponents .binary64 s exponent mantissa) = exponent :=
    unpackExponent_packComponents
  have unpacked := unpack_of_exponent (x := packComponents .binary64 s exponent mantissa)
    (by rwa [field]) (by rwa [field])
  rwa [field, unpackMantissa_packComponents, unpackSign_packComponents, ofBitVec_toBitVec] at unpacked

theorem unpack_pack (fits : Whole53 m e) (small : e ≤ 971) (s : Sign) (pos : 0 < m) :
    (Float.Model.pack (.finite s m e pos)).unpack = .finite s m e pos := by
  obtain ⟨low, high, exponent⟩ := fits
  have biased : (e + 1023 + 52).toNat < 2047 := by omega
  have digits : m.log2 + 1 = 53 := by
    rw [log2_eq_of_bounds (k := 0) (by omega) (by omega)]
  have field : (BitVec.ofNat 11 (e + 1023 + 52).toNat).toNat = (e + 1023 + 52).toNat := by
    rw [BitVec.toNat_ofNat]
    omega
  have rest : (BitVec.ofNat 52 m).toNat = m - 2 ^ 52 := by
    rw [BitVec.toNat_ofNat]
    omega
  have not_low : BitVec.ofNat 11 (e + 1023 + 52).toNat ≠ 0#11 := by
    intro zero
    have zero := congrArg BitVec.toNat zero
    rw [field, BitVec.toNat_zero] at zero
    omega
  have not_high : BitVec.ofNat 11 (e + 1023 + 52).toNat ≠ -1#11 := by
    intro ones
    have ones := congrArg BitVec.toNat ones
    rw [field] at ones
    have all : (-1#11).toNat = 2047 := rfl
    omega
  have packed : pack .binary64 (.finite s m e pos) =
      packComponents .binary64 s (BitVec.ofNat 11 (e + 1023 + 52).toNat) (BitVec.ofNat 52 m) := by
    have large : ¬2 ^ 11 ≤ (e + 1023 + 52).toNat + 1 := by omega
    unfold pack
    exact (if_neg large).trans (if_pos digits)
  have unpacks := @unpack_components s _ (BitVec.ofNat 52 m) not_low not_high
  obtain ⟨pos', unpacked⟩ := unpacks
  change unpack .binary64 (pack .binary64 (.finite s m e pos)) = _
  rw [packed, unpacked]
  exact finite_congr (by omega) (by omega)

theorem unpack_pack_large (large : 972 ≤ e) (s : Sign) (pos : 0 < m) :
    (Float.Model.pack (.finite s m e pos)).unpack = .infinity s := by
  have packed : pack .binary64 (.finite s m e pos) = packedInfinity .binary64 s := by
    have large : 2 ^ 11 ≤ (e + 1023 + 52).toNat + 1 := by omega
    unfold pack
    exact if_pos large
  change unpack .binary64 (pack .binary64 (.finite s m e pos)) = _
  rw [packed]
  cases s <;> rfl

/-- A float has at most 53 digits, and all of them unless its exponent is the least. -/
theorem shape_of_unpack {x : Float.Model} {s : Sign} {pos : 0 < m}
    (unpacked : x.unpack = .finite s m e pos) :
    m < 2 ^ 53 ∧ -1074 ≤ e ∧ e ≤ 971 ∧ (2 ^ 52 ≤ m ∨ e = -1074) := by
  change unpack .binary64 x.toBits.toBitVec = _ at unpacked
  generalize x.toBits.toBitVec = bits at unpacked
  have mantissa : (@unpackMantissa .binary64 bits).toNat < 2 ^ 52 := BitVec.isLt _
  have field : (@unpackExponent .binary64 bits).toNat < 2 ^ 11 := BitVec.isLt _
  by_cases high : @unpackExponent .binary64 bits = -1#11
  · have special := (if_pos high).symm.trans unpacked
    by_cases none_set : @unpackMantissa .binary64 bits = 0#52
    · cases (if_pos none_set).symm.trans special
    · cases (if_neg none_set).symm.trans special
  by_cases low : @unpackExponent .binary64 bits = 0#11
  · have small := (if_pos low).symm.trans ((if_neg high).symm.trans unpacked)
    by_cases none_set : @unpackMantissa .binary64 bits = 0#52
    · cases (dif_pos none_set).symm.trans small
    · cases (dif_neg none_set).symm.trans small
      rw [low]
      exact ⟨by omega, by decide, by decide, .inr rfl⟩
  · have not_low : (@unpackExponent .binary64 bits).toNat ≠ 0 :=
      fun zero => low (BitVec.eq_of_toNat_eq zero)
    have not_high : (@unpackExponent .binary64 bits).toNat ≠ 2047 :=
      fun ones => high (BitVec.eq_of_toNat_eq ones)
    obtain ⟨pos', normal⟩ := unpack_of_exponent low high
    cases normal.symm.trans unpacked
    omega

/-- What a float that is not negative is worth; `⊤` is beyond all finite ones. -/
inductive Worth : UnpackedFloat → WithTop ℚ → Prop where
  | zero (s : Sign) : Worth (.zero s) 0
  | finite (m : ℕ) (e : ℤ) (pos : 0 < m) : Worth (.finite .positive m e pos) (amount m e)
  | infinity : Worth (.infinity .positive) ⊤

def IsWorth (x : Float) (p : WithTop ℚ) : Prop := Worth x.toModel.unpack p

theorem isWorth_of_unpack {x : Float} {pos : 0 < m}
    (unpacked : x.toModel.unpack = .finite .positive m e pos) : IsWorth x (amount m e) := by
  rw [IsWorth, unpacked]
  exact .finite m e pos

/-- Numbers of `2 ^ 1024` and more are not finite as floats. -/
def clip (p : ℚ) : WithTop ℚ := if p < 2 ^ 1024 then p else ⊤

theorem clip_eq_coe {p : ℚ} (small : p < 2 ^ 1024) : clip p = p := if_pos small

theorem clip_eq_top {p : ℚ} (large : 2 ^ 1024 ≤ p) : clip p = ⊤ := if_neg (not_lt.mpr large)

theorem clip_eq_top_iff {p : ℚ} : clip p = ⊤ ↔ 2 ^ 1024 ≤ p := by
  refine ⟨fun top => not_lt.mp fun small => ?_, clip_eq_top⟩
  rw [clip_eq_coe small] at top
  exact WithTop.coe_ne_top top

theorem Whole53.amount_lt_iff (fits : Whole53 m e) : amount m e < 2 ^ 1024 ↔ e ≤ 971 := by
  have pos : 0 < m := lt_of_lt_of_le (Nat.two_pow_pos 52) fits.low
  have log : m.log2 = 52 := log2_eq_of_bounds (k := 0) (by have := fits.low; omega)
    (by have := fits.high; omega)
  have low := two_zpow_le_amount pos e
  have high := amount_lt_two_zpow m e
  rw [log] at low high
  constructor
  · intro small
    have less := lt_of_le_of_lt low (small.trans_eq (zpow_natCast 2 1024).symm)
    have := (zpow_lt_zpow_iff_right₀ (by norm_num : (1 : ℚ) < 2)).mp less
    omega
  · intro small
    refine lt_of_lt_of_le high ?_
    rw [← zpow_natCast (2 : ℚ) 1024]
    exact zpow_le_zpow_right₀ (by norm_num) (by omega)

theorem worth_pack (fits : Whole53 m e) (pos : 0 < m) :
    Worth (Float.Model.pack (.finite .positive m e pos)).unpack (clip (amount m e)) := by
  by_cases small : e ≤ 971
  · rw [unpack_pack fits small, clip_eq_coe (fits.amount_lt_iff.mpr small)]
    exact .finite m e pos
  · have large := not_lt.mp (mt fits.amount_lt_iff.mp small)
    rw [unpack_pack_large (by omega), clip_eq_top large]
    exact .infinity

theorem Worth.isNaN {x : UnpackedFloat} {z : WithTop ℚ} (worth : Worth x z) : x.isNaN = false := by
  cases worth <;> rfl

theorem Worth.isInf {x : UnpackedFloat} {z : WithTop ℚ} (worth : Worth x z) :
    x.isInf = true ↔ z = ⊤ := by
  cases worth with
  | zero s => exact ⟨nofun, nofun⟩
  | finite m e pos => exact ⟨nofun, nofun⟩
  | infinity => exact ⟨fun _ => rfl, fun _ => rfl⟩

theorem Worth.eq_zero {x : UnpackedFloat} (worth : Worth x 0) : ∃ s, x = .zero s := by
  generalize same : (0 : WithTop ℚ) = z at worth
  cases worth with
  | zero s => exact ⟨s, rfl⟩
  | finite m e pos =>
    have zero : 0 = amount m e := by exact_mod_cast same
    exact absurd zero (amount_pos pos e).ne
  | infinity => exact absurd same WithTop.zero_ne_top

theorem Worth.eq_infinity {x : UnpackedFloat} (worth : Worth x ⊤) : x = .infinity .positive := by
  generalize same : (⊤ : WithTop ℚ) = z at worth
  cases worth with
  | zero s => exact absurd same.symm WithTop.zero_ne_top
  | finite m e pos => exact absurd same.symm WithTop.coe_ne_top
  | infinity => rfl

variable {x y : Float} {p q : ℚ}

theorem IsWorth.finite (worth : IsWorth x p) (some_left : 1 / 2 ≤ p) :
    ∃ m e pos, x.toModel.unpack = .finite .positive m e pos ∧ Whole53 m e ∧ -53 ≤ e ∧
      amount m e = p := by
  unfold IsWorth at worth
  generalize unpacked : x.toModel.unpack = u at worth
  generalize same : (p : WithTop ℚ) = z at worth
  cases worth with
  | zero s =>
    have zero : p = 0 := by exact_mod_cast same
    rw [zero] at some_left
    norm_num at some_left
  | infinity => cases same
  | finite m e pos =>
    obtain rfl : p = amount m e := by exact_mod_cast same
    obtain ⟨high, exponent, -, normal⟩ := shape_of_unpack unpacked
    have low : -53 ≤ e := by
      have bound : (2 : ℚ) ^ (-1 : ℤ) < 2 ^ ((m.log2 : ℤ) + 1 + e) :=
        lt_of_le_of_lt (by norm_num at some_left ⊢; exact some_left) (amount_lt_two_zpow m e)
      have := (zpow_lt_zpow_iff_right₀ (by norm_num : (1 : ℚ) < 2)).mp bound
      have := (Nat.log2_lt pos.ne').mpr high
      omega
    exact ⟨m, e, pos, rfl, ⟨normal.resolve_right (by omega), high, exponent⟩, low, rfl⟩

theorem IsWorth.lt (worth : IsWorth x p) : p < 2 ^ 1024 := by
  by_cases some_left : 1 / 2 ≤ p
  · obtain ⟨m, e, pos, unpacked, fits, -, rfl⟩ := worth.finite some_left
    exact fits.amount_lt_iff.mpr (shape_of_unpack unpacked).2.2.1
  · have half : p < 1 := (not_le.mp some_left).trans (by norm_num)
    exact half.trans (one_lt_pow₀ one_lt_two (by decide))

/-- The product of two floats is their product, rounded, as long as neither is small. -/
theorem IsWorth.mul (first : IsWorth x p) (second : IsWorth y q) (some_left : 1 / 2 ≤ p)
    (some_left' : 1 / 2 ≤ q) : ∃ r, Rounds (p * q) r ∧ IsWorth (x * y) (clip r) := by
  obtain ⟨m, e, pos, one, fits, low, rfl⟩ := first.finite some_left
  obtain ⟨m', e', pos', two, fits', low', rfl⟩ := second.finite some_left'
  obtain ⟨k, digits⟩ : ∃ k, (m * m').log2 = 52 + k := by
    have many : 2 ^ 52 ≤ m * m' := le_trans fits.low (Nat.le_mul_of_pos_right m pos')
    have some_left := (Nat.le_log2 (Nat.mul_pos pos pos').ne').mpr many
    exact ⟨(m * m').log2 - 52, by omega⟩
  obtain ⟨r, t, pos'', rounded, whole, rounds⟩ :=
    round_rounds (e := e + e') .positive digits (by omega)
  refine ⟨amount r t, ?_, ?_⟩
  · rwa [amount_mul]
  · change Worth (Float.Model.pack (mul .binary64 x.toModel.unpack y.toModel.unpack)).unpack _
    rw [one, two]
    change Worth (Float.Model.pack
      (roundWithAccuracy .binary64 .positive (m * m') (e + e') .exact)).unpack _
    rw [rounded]
    exact worth_pack whole pos''

theorem Rounds.refl {p : ℚ} (nonneg : 0 ≤ p) : Rounds p p where
  below := by unfold unit; nlinarith
  above := by unfold unit; nlinarith
  whole _ _ same := same
  power _ le := le

theorem worth_pack_infinity : Worth (Float.Model.pack (.infinity .positive)).unpack ⊤ := by
  have same : (Float.Model.pack (.infinity .positive)).unpack = .infinity .positive := rfl
  rw [same]
  exact .infinity

theorem isWorth_mul_top {z z' : WithTop ℚ} (first : IsWorth x z) (second : IsWorth y z')
    (some_left : z ≠ 0) (some_left' : z' ≠ 0) (infinite : z = ⊤ ∨ z' = ⊤) : IsWorth (x * y) ⊤ := by
  change Worth (Float.Model.pack (mul .binary64 x.toModel.unpack y.toModel.unpack)).unpack ⊤
  unfold IsWorth at first second
  generalize x.toModel.unpack = u at first
  generalize y.toModel.unpack = v at second
  cases first with
  | zero s => exact absurd rfl some_left
  | infinity =>
    cases second with
    | zero s => exact absurd rfl some_left'
    | finite m e pos => exact worth_pack_infinity
    | infinity => exact worth_pack_infinity
  | finite m e pos =>
    cases second with
    | zero s => exact absurd rfl some_left'
    | finite m e pos => exact absurd infinite (by simp)
    | infinity => exact worth_pack_infinity

theorem isWorth_zero_mul {z : WithTop ℚ} (first : IsWorth x 0) (second : IsWorth y z)
    (finite : z ≠ ⊤) : IsWorth (x * y) 0 := by
  obtain ⟨s, unpacked⟩ := Worth.eq_zero first
  have packed : ∀ s, Worth (Float.Model.pack (.zero s)).unpack 0 := by
    intro s
    have same : (Float.Model.pack (.zero s)).unpack = .zero s := by cases s <;> rfl
    rw [same]
    exact .zero s
  change Worth (Float.Model.pack (mul .binary64 x.toModel.unpack y.toModel.unpack)).unpack 0
  unfold IsWorth at second
  rw [unpacked]
  generalize y.toModel.unpack = v at second
  cases second with
  | zero t =>
    have product : mul .binary64 (.zero s) (.zero t) = .zero (s * t) := rfl
    rw [product]
    exact packed _
  | finite m e pos =>
    have product : mul .binary64 (.zero s) (.finite .positive m e pos) = .zero (s * .positive) := rfl
    rw [product]
    exact packed _
  | infinity => exact absurd rfl finite

theorem isNaN_zero_mul_top (first : IsWorth x 0) (second : IsWorth y ⊤) : (x * y).isNaN = true := by
  obtain ⟨s, unpacked⟩ := Worth.eq_zero first
  change (Float.Model.pack (mul .binary64 x.toModel.unpack y.toModel.unpack)).unpack.isNaN = true
  have product : mul .binary64 (.zero s) (.infinity .positive) = .notANumber := rfl
  rw [unpacked, Worth.eq_infinity second, product]
  rfl

theorem clip_ne_zero (one : 1 ≤ p) : clip p ≠ 0 := by
  by_cases small : p < 2 ^ 1024
  · have nonzero : p ≠ 0 := (lt_of_lt_of_le zero_lt_one one).ne'
    rw [clip_eq_coe small]
    exact_mod_cast nonzero
  · rw [clip_eq_top (not_lt.mp small)]
    exact WithTop.top_ne_zero

theorem isWorth_mul (first : IsWorth x (clip p)) (second : IsWorth y (clip q)) (one : 1 ≤ p)
    (one' : 1 ≤ q) : ∃ r, Rounds (p * q) r ∧ IsWorth (x * y) (clip r) := by
  by_cases both : p < 2 ^ 1024 ∧ q < 2 ^ 1024
  · rw [clip_eq_coe both.1] at first
    rw [clip_eq_coe both.2] at second
    exact first.mul second (le_trans (by norm_num) one) (le_trans (by norm_num) one')
  · have nonneg : 0 ≤ p := zero_le_one.trans one
    have nonneg' : 0 ≤ q := zero_le_one.trans one'
    have large := not_and_or.mp both
    refine ⟨p * q, .refl (mul_nonneg nonneg nonneg'), ?_⟩
    have product : 2 ^ 1024 ≤ p * q := by
      rcases large with large | large
      · exact (not_lt.mp large).trans (le_mul_of_one_le_right nonneg one')
      · exact (not_lt.mp large).trans (le_mul_of_one_le_left nonneg' one)
    rw [clip_eq_top product]
    refine isWorth_mul_top first second (clip_ne_zero one) (clip_ne_zero one') ?_
    exact large.imp (fun large => clip_eq_top (not_lt.mp large))
      fun large => clip_eq_top (not_lt.mp large)

theorem amount_lt_of_exponent {m m' : ℕ} {e e' : ℤ} (high : m < 2 ^ 53) (normal : 2 ^ 52 ≤ m')
    (less : e < e') : amount m e < amount m' e' := by
  have high : (m : ℚ) < 2 ^ (53 : ℤ) := by exact_mod_cast high
  have normal : (2 : ℚ) ^ (52 : ℤ) ≤ m' := by exact_mod_cast normal
  calc amount m e < 2 ^ (53 : ℤ) * 2 ^ e := mul_lt_mul_of_pos_right high (by positivity)
    _ = 2 ^ (53 + e) := (zpow_add₀ (by norm_num) _ _).symm
    _ ≤ 2 ^ (52 + e') := zpow_le_zpow_right₀ (by norm_num) (by omega)
    _ = 2 ^ (52 : ℤ) * 2 ^ e' := zpow_add₀ (by norm_num) _ _
    _ ≤ amount m' e' := mul_le_mul_of_nonneg_right normal (by positivity)

/-- Of two floats the one with the higher exponent is greater, since it has all of its digits. -/
theorem amount_lt_iff {m m' : ℕ} {e e' : ℤ} (high : m < 2 ^ 53) (high' : m' < 2 ^ 53)
    (normal : 2 ^ 52 ≤ m ∨ e ≤ e') (normal' : 2 ^ 52 ≤ m' ∨ e' ≤ e) :
    amount m e < amount m' e' ↔ e < e' ∨ e = e' ∧ m < m' := by
  rcases lt_trichotomy e e' with less | rfl | greater
  · have less' := amount_lt_of_exponent high (normal'.resolve_right (by omega)) less
    exact ⟨fun _ => .inl less, fun _ => less'⟩
  · have scale : (0 : ℚ) < 2 ^ e := by positivity
    rw [amount, amount, mul_lt_mul_iff_left₀ scale, Nat.cast_lt]
    omega
  · have greater' := amount_lt_of_exponent high' (normal.resolve_right (by omega)) greater
    constructor
    · intro less
      exact absurd less (not_lt.mpr greater'.le)
    · intro less
      omega

theorem lt_iff_worth {x y : Float} {z z' : WithTop ℚ} (first : IsWorth x z) (second : IsWorth y z') :
    x < y ↔ z < z' := by
  rw [lt_iff_compare]
  unfold IsWorth at first second
  generalize unpacked : x.toModel.unpack = u at first
  generalize unpacked' : y.toModel.unpack = v at second
  cases first with
  | zero s =>
    cases second with
    | zero s' => exact ⟨nofun, fun less => absurd less (lt_irrefl _)⟩
    | finite m' e' pos' =>
      have less : (0 : WithTop ℚ) < amount m' e' := by exact_mod_cast amount_pos pos' e'
      exact ⟨fun _ => less, fun _ => rfl⟩
    | infinity => exact ⟨fun _ => WithTop.coe_lt_top 0, fun _ => rfl⟩
  | finite m e pos =>
    cases second with
    | zero s' =>
      have greater : (0 : WithTop ℚ) < amount m e := by exact_mod_cast amount_pos pos e
      exact ⟨nofun, fun less => absurd less (lt_asymm greater)⟩
    | finite m' e' pos' =>
      obtain ⟨high, least, -, normal⟩ := shape_of_unpack unpacked
      obtain ⟨high', least', -, normal'⟩ := shape_of_unpack unpacked'
      have amounts : amount m e < amount m' e' ↔ e < e' ∨ e = e' ∧ m < m' :=
        amount_lt_iff high high' (normal.imp_right (by omega)) (normal'.imp_right (by omega))
      rw [WithTop.coe_lt_coe, amounts, ← magnitude_lt_iff]
      exact Option.some_inj
    | infinity => exact ⟨fun _ => WithTop.coe_lt_top _, fun _ => rfl⟩
  | infinity =>
    cases second with
    | zero s' => exact ⟨nofun, fun less => absurd less not_top_lt⟩
    | finite m' e' pos' => exact ⟨nofun, fun less => absurd less not_top_lt⟩
    | infinity => exact ⟨nofun, fun less => absurd less not_top_lt⟩

theorem isWorth_zero : IsWorth (UInt64.toFloat 0) 0 := .zero .positive

theorem isWorth_toFloat {n : UInt64} (pos : 0 < n.toNat) :
    ∃ r : ℚ, Rounds n.toNat r ∧ IsWorth n.toFloat r := by
  obtain ⟨r, t, pos', rounded, whole, rounds⟩ := round_nat .positive pos
  have small : amount r t < 2 ^ 65 := by
    have bound : (n.toNat : ℚ) < 2 ^ 64 := by exact_mod_cast n.toNat_lt
    have above := rounds.above
    unfold unit at above
    linarith
  refine ⟨amount r t, rounds, ?_⟩
  rw [← clip_eq_coe (small.trans (pow_lt_pow_right₀ (by norm_num) (by norm_num)))]
  have given : UnpackedFloat.ofUInt64 .binary64 n =
      UnpackedFloat.round .binary64 .positive n.toNat 0 := by
    have sign : compare ((n.toNat : ℕ) : ℤ) 0 = .gt := compare_gt_iff_gt.mpr (by exact_mod_cast pos)
    change UnpackedFloat.normalize .binary64 n.toNat 0 .positive = _
    unfold UnpackedFloat.normalize
    rw [sign]
    rfl
  change Worth (Float.Model.pack (UnpackedFloat.ofUInt64 .binary64 n)).unpack _
  rw [given, rounded]
  exact worth_pack whole pos'

theorem isWorth_word {n : UInt64} (small : n.toNat < 2 ^ 53) : IsWorth n.toFloat (n.toNat : ℚ) := by
  rcases Nat.eq_zero_or_pos n.toNat with zero | pos
  · obtain rfl : n = 0 := UInt64.toNat_inj.mp zero
    exact_mod_cast isWorth_zero
  · obtain ⟨r, rounds, worth⟩ := isWorth_toFloat pos
    rwa [← rounds.whole n.toNat small rfl]

theorem roundToInt_eq (m : ℕ) (e : ℤ) : roundToInt .positive m e = (⌊amount m e⌋₊ : ℤ) := by
  have whole : roundToInt .positive m e =
      ((m * 2 ^ (e - 0).toNat / 2 ^ (0 - (e - (e - 0).toNat)).toNat : ℕ) : ℤ) := by
    rw [← Nat.shiftLeft_eq]
    exact congrArg Int.ofNat (shiftRight_mantissa _ _)
  rw [whole, Int.sub_zero]
  congr 1
  rcases Int.le_total 0 e with up | down
  · obtain ⟨k, rfl⟩ := Int.eq_ofNat_of_zero_le up
    have places : (0 - ((k : ℤ) - ((k : ℤ).toNat : ℕ))).toNat = 0 := by omega
    have same : amount m k = (m * 2 ^ k : ℕ) := by
      rw [amount, zpow_natCast]
      push_cast
      rfl
    rw [places, same, Nat.floor_natCast, Nat.pow_zero, Nat.div_one, Int.toNat_natCast]
  · obtain ⟨k, rfl⟩ : ∃ k : ℕ, e = -k := ⟨(-e).toNat, by omega⟩
    have places : (0 - (-(k : ℤ) - ((-(k : ℤ)).toNat : ℕ))).toNat = k := by omega
    have none_left : (-(k : ℤ)).toNat = 0 := by omega
    have same : amount m (-k) = (m : ℚ) / (2 ^ k : ℕ) := by
      rw [amount, zpow_neg, zpow_natCast, div_eq_mul_inv]
      push_cast
      rfl
    rw [places, none_left, same, Nat.floor_div_natCast, Nat.floor_natCast, Nat.pow_zero, Nat.mul_one]

theorem toUInt64_eq (x : Float) :
    x.toUInt64.toNat = min (x.toModel.unpack.toInt 0 (2 ^ 64 - 1)).toNat (2 ^ 64 - 1) := by
  change (UInt64.ofNatClamp (x.toModel.unpack.toInt 0 (2 ^ 64 - 1)).toNat).toNat = _
  generalize (x.toModel.unpack.toInt 0 (2 ^ 64 - 1)).toNat = n
  by_cases small : n < UInt64.size
  · rw [UInt64.toNat_ofNatClamp_of_lt small]
    have small : n < 2 ^ 64 := small
    omega
  · rw [UInt64.toNat_ofNatClamp_of_le (Nat.le_of_not_lt small)]
    have large : 2 ^ 64 ≤ n := Nat.le_of_not_lt small
    exact (min_eq_right (by omega)).symm

theorem toUInt64_coe {p : ℚ} (worth : IsWorth x p) : x.toUInt64.toNat = min ⌊p⌋₊ (2 ^ 64 - 1) := by
  rw [toUInt64_eq]
  unfold IsWorth at worth
  generalize x.toModel.unpack = u at worth
  generalize same : (p : WithTop ℚ) = z at worth
  cases worth with
  | zero s =>
    have zero : p = 0 := by exact_mod_cast same
    rw [zero, Nat.floor_zero]
    rfl
  | infinity => cases same
  | finite m e pos =>
    obtain rfl : p = amount m e := by exact_mod_cast same
    change min (roundToInt .positive m e).toNat (2 ^ 64 - 1) = _
    rw [roundToInt_eq, Int.toNat_natCast]

end SessionCourier.Rounding
