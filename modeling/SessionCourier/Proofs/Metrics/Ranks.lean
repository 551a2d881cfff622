import Mathlib.Data.List.GetD
import Mathlib.Data.Nat.Cast.Order.Field
import SessionCourier.Proofs.Metrics.Reads
import SessionCourier.Proofs.Number.Worth

set_option autoImplicit false

/-!
# The ranks of a summary

A summary picks three of the observed values by their rank in ascending order. Two of the ranks are
taken in floating point: the number of values is rounded, and so is its product with the fraction.
Both roundings are too small to bring the ranks out of order or beyond the last value. Since the
values that are picked depend on the standings alone, the order of the observations does not matter
to them, up to the sign of a zero.
-/

namespace SessionCourier.Metrics

open Float.Model (UnpackedFloat)
open Rounding

/-- A fraction of a word, in floating point, is off by two roundings. -/
theorem fraction_bounds {n : UInt64} {fraction : Float} {c : ℚ} (pos : 0 < n.toNat)
    (worth : IsWorth fraction c) (half : 1 / 2 ≤ c) (one : c ≤ 1) :
    ∃ q : ℚ, (n.toFloat * fraction).toUInt64.toNat = min ⌊q⌋₊ (2 ^ 64 - 1) ∧
      n.toNat * c * (1 - unit) ^ 2 ≤ q ∧ q ≤ n.toNat * c * (1 + unit) ^ 2 := by
  obtain ⟨r, rounds, count⟩ := isWorth_toFloat pos
  have least : (1 : ℚ) ≤ n.toNat := by exact_mod_cast pos
  have most : (n.toNat : ℚ) < 2 ^ 64 := by exact_mod_cast n.toNat_lt
  have nonneg : 0 ≤ c := le_trans (by norm_num) half
  have some_left : 1 / 2 ≤ r := by
    calc (1 / 2 : ℚ) ≤ 1 * (1 - unit) := by norm_num [unit]
      _ ≤ n.toNat * (1 - unit) := mul_le_mul_of_nonneg_right least (by norm_num [unit])
      _ ≤ r := rounds.below
  obtain ⟨q, rounds', product⟩ := count.mul worth some_left half
  obtain ⟨below, above⟩ := rounds.mul rounds' nonneg
  have small : q < 2 ^ 66 := by
    have twice : (1 + unit) ^ 2 ≤ 2 := by norm_num [unit]
    calc q ≤ n.toNat * c * (1 + unit) ^ 2 := above
      _ ≤ 2 ^ 64 * 1 * 2 :=
        mul_le_mul (mul_le_mul most.le one nonneg (by norm_num)) twice (sq_nonneg _) (by norm_num)
      _ < 2 ^ 66 := by norm_num
  rw [clip_eq_coe (small.trans (pow_lt_pow_right₀ one_lt_two (by decide)))] at product
  exact ⟨q, toUInt64_coe product, below, above⟩

theorem isWorth_most : ∃ c : ℚ, IsWorth 0.95 c ∧ 94 / 100 ≤ c ∧ c ≤ 96 / 100 := by
  have unpacked : (0.95 : Float).toModel.unpack =
      .finite .positive 8556839292003942 (-53) (by decide) := by
    rfl
  exact ⟨_, isWorth_of_unpack unpacked, by norm_num [amount], by norm_num [amount]⟩

theorem isWorth_nearly_all : ∃ c : ℚ, IsWorth 0.99 c ∧ 98 / 100 ≤ c ∧ c ≤ 1 := by
  have unpacked : (0.99 : Float).toModel.unpack =
      .finite .positive 8917127262193582 (-53) (by decide) := by
    rfl
  exact ⟨_, isWorth_of_unpack unpacked, by norm_num [amount], by norm_num [amount]⟩

theorem rank_lt {n : ℕ} (pos : 0 < n) (fraction : Float) : rank n fraction < n := by
  have last := Nat.min_le_right ((UInt64.ofNat n).toFloat * fraction).toUInt64.toNat (n - 1)
  unfold rank
  omega

/-- The ranks are in order, in spite of the roundings. -/
theorem rank_mono {n : ℕ} (pos : 0 < n) (few : n < 2 ^ 64) :
    n / 2 ≤ rank n 0.95 ∧ rank n 0.95 ≤ rank n 0.99 := by
  obtain ⟨c, worth, low, high⟩ := isWorth_most
  obtain ⟨c', worth', low', high'⟩ := isWorth_nearly_all
  have word : (UInt64.ofNat n).toNat = n := UInt64.toNat_ofNat_of_lt' few
  have pos' : 0 < (UInt64.ofNat n).toNat := by omega
  obtain ⟨q, picked, below, above⟩ := fraction_bounds pos' worth (by linarith) (by linarith)
  obtain ⟨q', picked', below', -⟩ := fraction_bounds pos' worth' (by linarith) (by linarith)
  rw [word] at below above below'
  have some_left : (0 : ℚ) < n := by exact_mod_cast pos
  have half : ((n / 2 : ℕ) : ℚ) ≤ q := by
    calc ((n / 2 : ℕ) : ℚ) ≤ n / 2 := Nat.cast_div_le
      _ ≤ n * (94 / 100 * (1 - unit) ^ 2) := by
        have enough : (1 / 2 : ℚ) ≤ 94 / 100 * (1 - unit) ^ 2 := by norm_num [unit]
        linarith [mul_le_mul_of_nonneg_left enough some_left.le]
      _ ≤ n * c * (1 - unit) ^ 2 := by
        rw [← mul_assoc]
        gcongr
      _ ≤ q := below
  have grown : q ≤ q' := by
    calc q ≤ n * c * (1 + unit) ^ 2 := above
      _ ≤ n * (96 / 100) * (1 + unit) ^ 2 := by gcongr
      _ ≤ n * (98 / 100) * (1 - unit) ^ 2 := by
        have enough : (96 / 100 : ℚ) * (1 + unit) ^ 2 ≤ 98 / 100 * (1 - unit) ^ 2 := by
          norm_num [unit]
        linarith [mul_le_mul_of_nonneg_left enough some_left.le]
      _ ≤ n * c' * (1 - unit) ^ 2 := by gcongr
      _ ≤ q' := below'
  have floor := Nat.le_floor half
  have floor' := Nat.floor_le_floor grown
  unfold rank
  rw [picked, picked']
  omega

variable {values values' : List Float}

theorem Summary.ofAscending_of_ne_nil (some_left : values ≠ []) :
    Summary.ofAscending values =
      { count := UInt64.ofNat values.length
        sum := total values
        p50 := values.getD (values.length / 2) 0.0
        p95 := values.getD (rank values.length 0.95) 0.0
        p99 := values.getD (rank values.length 0.99) 0.0 } := by
  cases values with
  | nil => exact absurd rfl some_left
  | cons x rest => rfl

theorem getElem?_eq_getD {i : ℕ} (inside : i < values.length) :
    values[i]? = some (values.getD i 0.0) := by
  rw [List.getD_eq_getElem _ _ inside, List.getElem?_eq_getElem inside]

theorem pairwise_standing (numbers : Numbers values) :
    ((ascending values).map standing).Pairwise (· ≤ ·) := by
  rw [ascending_numbers numbers, List.pairwise_map]
  exact Sorting.pairwise_mergeSort standing values

theorem standings_ascending (numbers : Numbers values) (perm : values'.Perm values) :
    (ascending values').map standing = (ascending values).map standing := by
  have same : (ascending values').Perm (ascending values) :=
    (ascending_perm values').trans (perm.trans (ascending_perm values).symm)
  exact (same.map standing).eq_of_pairwise' (pairwise_standing (numbers.of_perm perm))
    (pairwise_standing numbers)

theorem pairwise_le_ascending (numbers : Numbers values) :
    (ascending values).Pairwise (· ≤ ·) := by
  have numbers' := numbers.of_perm (ascending_perm values)
  refine (List.pairwise_map.mp (pairwise_standing numbers)).imp_of_mem fun mem mem' le => ?_
  exact (le_iff_standing (numbers' _ mem) (numbers' _ mem')).mpr le

def pick (values : List Float) (i : ℕ) : Float := (ascending values).getD i 0.0

theorem pick_eq {i : ℕ} (inside : i < values.length) :
    (ascending values)[i]? = some (pick values i) :=
  getElem?_eq_getD (by rwa [(ascending_perm values).length_eq])

theorem pick_mem {i : ℕ} (inside : i < values.length) : pick values i ∈ values :=
  (ascending_perm values).mem_iff.mp (List.mem_of_getElem? (pick_eq inside))

theorem standing_pick (values : List Float) (i : ℕ) :
    standing (pick values i) = ((ascending values).map standing).getD i (standing 0.0) := by
  rw [pick, List.getD_map]

theorem pick_le (numbers : Numbers values) {i j : ℕ} (le : i ≤ j) (inside : j < values.length) :
    pick values i ≤ pick values j := by
  have sorted := (pairwise_standing numbers).sortedLE
  have number := numbers _ (pick_mem (lt_of_le_of_lt le inside))
  have number' := numbers _ (pick_mem inside)
  rw [← (ascending_perm values).length_eq, ← List.length_map (f := standing)] at inside
  have inside' := lt_of_le_of_lt le inside
  rw [le_iff_standing number number', standing_pick, standing_pick, List.getD_eq_getElem _ _ inside,
    List.getD_eq_getElem _ _ inside']
  exact sorted.getElem_le_getElem_of_le le

theorem pick_perm (numbers : Numbers values) (perm : values'.Perm values) {i : ℕ}
    (inside : i < values.length) : (pick values' i == pick values i) = true := by
  have number := numbers _ (pick_mem inside)
  have number' := numbers.of_perm perm _ (pick_mem (perm.length_eq.symm ▸ inside))
  rw [eq_iff_standing number' number, standing_pick, standing_pick, standings_ascending numbers perm]

/-- What a summary says of values: how many there are, and three of them by their rank in ascending
order. The words that count them are enough for as many values as can be held. -/
structure Summary.Describes (s : Summary) (values : List Float) : Prop where
  count : s.count = UInt64.ofNat values.length
  ranked : ∃ sorted : List Float, sorted.Perm values ∧ sorted.Pairwise (· ≤ ·) ∧
    sorted[values.length / 2]? = some s.p50 ∧
    sorted[rank values.length 0.95]? = some s.p95 ∧
    sorted[rank values.length 0.99]? = some s.p99
  among : s.p50 ∈ values ∧ s.p95 ∈ values ∧ s.p99 ∈ values
  ordered : values.length < 2 ^ 64 →
    s.count.toNat = values.length ∧ s.p50 ≤ s.p95 ∧ s.p95 ≤ s.p99

/-- Summaries that agree in everything but the sum, where zeros of both signs are one number. -/
structure Summary.Agree (s s' : Summary) : Prop where
  count : s.count = s'.count
  p50 : (s.p50 == s'.p50) = true
  p95 : (s.p95 == s'.p95) = true
  p99 : (s.p99 == s'.p99) = true

theorem summary_of_picks (some_left : values ≠ []) :
    Summary.ofAscending (ascending values) =
      { count := UInt64.ofNat values.length
        sum := total (ascending values)
        p50 := pick values (values.length / 2)
        p95 := pick values (rank values.length 0.95)
        p99 := pick values (rank values.length 0.99) } := by
  have perm := ascending_perm values
  have some_left' : ascending values ≠ [] := fun none_left =>
    some_left (List.Perm.nil_eq (none_left ▸ perm)).symm
  rw [Summary.ofAscending_of_ne_nil some_left', perm.length_eq]
  rfl

theorem describes_ofAscending (some_left : values ≠ []) (numbers : Numbers values) :
    (Summary.ofAscending (ascending values)).Describes values := by
  have pos : 0 < values.length := List.length_pos_iff.mpr some_left
  have half : values.length / 2 < values.length := by omega
  have most := rank_lt pos 0.95
  have nearly_all := rank_lt pos 0.99
  rw [summary_of_picks some_left]
  refine ⟨rfl, ⟨ascending values, ascending_perm values, pairwise_le_ascending numbers,
    pick_eq half, pick_eq most, pick_eq nearly_all⟩,
    ⟨pick_mem half, pick_mem most, pick_mem nearly_all⟩, fun few => ?_⟩
  obtain ⟨first, second⟩ := rank_mono pos few
  exact ⟨UInt64.toNat_ofNat_of_lt' few, pick_le numbers first most, pick_le numbers second nearly_all⟩

theorem agree_ofAscending (some_left : values ≠ []) (numbers : Numbers values)
    (perm : values'.Perm values) :
    (Summary.ofAscending (ascending values')).Agree (.ofAscending (ascending values)) := by
  have pos : 0 < values.length := List.length_pos_iff.mpr some_left
  have half : values.length / 2 < values.length := by omega
  have some_left' : values' ≠ [] := fun none_left =>
    some_left (List.Perm.nil_eq (none_left ▸ perm)).symm
  rw [summary_of_picks some_left, summary_of_picks some_left', perm.length_eq]
  exact ⟨rfl, pick_perm numbers perm half, pick_perm numbers perm (rank_lt pos 0.95),
    pick_perm numbers perm (rank_lt pos 0.99)⟩

/-- The summary of a series to which only numbers were added, after any accesses to its store. It
describes these numbers; it is the same after any other accesses that make the same updates, so the
summaries and snapshots taken in between leave no trace; and the same numbers in another order lead
to a summary that agrees with it. -/
theorem summary_of_observed (accesses : List Access) (s : Store) (reached : Reached accesses s)
    (name : String) (labels : List Label) (some_left : observed accesses name labels ≠ [])
    (numbers : Numbers (observed accesses name labels)) :
    ∃ summary, s.summary? (.of name labels) = some summary ∧
      summary.Describes (observed accesses name labels) ∧
      (∀ others t, Reached others t → log others = log accesses →
        t.summary? (.of name labels) = some summary) ∧
      ∀ others t name' labels', Reached others t →
        (observed others name' labels').Perm (observed accesses name labels) →
        ∃ summary', t.summary? (.of name' labels') = some summary' ∧ summary'.Agree summary := by
  refine ⟨_, reached.told.summary?_of_numbers numbers, describes_ofAscending some_left numbers, ?_,
    ?_⟩
  · intro others t reached' same
    rw [observed, ← same] at numbers
    rw [← same]
    exact reached'.told.summary?_of_numbers numbers
  · intro others t name' labels' reached' perm
    exact ⟨_, reached'.told.summary?_of_numbers (numbers.of_perm perm),
      agree_ofAscending some_left numbers perm⟩

/-- Two values and a snapshot between them, against the same values in the other order. -/
def waited : List Access :=
  [.observe "wait" [("to", "s1")] 2.0, .snapshot, .observe "wait" [("to", "s1")] 1.0]

def waitedTwice : List Access :=
  [.observe "wait" [("to", "s2")] 1.0, .observe "wait" [("to", "s2")] 2.0]

theorem summary_of_observed_waited :
    Numbers (observed waited "wait" [("to", "s1")]) ∧
      ∃ s t summary summary', Reached waited s ∧ Reached waitedTwice t ∧
        s.summary? (.of "wait" [("to", "s1")]) = some summary ∧ summary.count.toNat = 2 ∧
        t.summary? (.of "wait" [("to", "s2")]) = some summary' ∧ summary'.Agree summary := by
  have values : observed waited "wait" [("to", "s1")] = [2.0, 1.0] := by
    simp [observed, waited, log, List.filterMap_cons, Access.update?, Update.observed]
  have values' : observed waitedTwice "wait" [("to", "s2")] = [1.0, 2.0] := by
    simp [observed, waitedTwice, log, Access.update?, Update.observed]
  have numbers : Numbers (observed waited "wait" [("to", "s1")]) := by
    rw [values]
    decide
  obtain ⟨s, reached⟩ := Reached.exists_reached waited
  obtain ⟨t, reached'⟩ := Reached.exists_reached waitedTwice
  obtain ⟨summary, given, describes, -, agree⟩ := summary_of_observed waited s reached "wait"
    [("to", "s1")] (by rw [values]; exact List.cons_ne_nil _ _) numbers
  obtain ⟨summary', given', agrees⟩ := agree waitedTwice t "wait" [("to", "s2")] reached' (by
    rw [values, values']
    exact .swap _ _ _)
  rw [values] at describes
  exact ⟨numbers, s, t, summary, summary', reached, reached', given,
    (describes.ordered (by decide)).1, given', agrees⟩

end SessionCourier.Metrics
