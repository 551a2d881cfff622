import SessionCourier.Proofs.Metrics.Ascending
import SessionCourier.Proofs.Number.Power
import SessionCourier.Proofs.Settings.Layers

set_option autoImplicit false

namespace SessionCourier

namespace Rounding

theorem le_iff_worth {x y : Float} {z z' : WithTop ℚ} (first : IsWorth x z) (second : IsWorth y z') :
    x ≤ y ↔ z ≤ z' := by
  have number : x.isNaN = false := first.isNaN
  have number' : y.isNaN = false := second.isNaN
  rw [Metrics.le_iff_standing number number', ← not_lt, ← Metrics.lt_iff_standing number' number,
    lt_iff_worth second first, not_lt]

theorem exists_worth_of_one_le {x : Float} (le : 1.0 ≤ x) : ∃ z, IsWorth x z := by
  have one : (1.0 : Float).toModel.unpack = .finite .positive (2 ^ 52) (-52) (by decide) := by
    rfl
  rw [le_iff_compare, one] at le
  unfold IsWorth
  generalize x.toModel.unpack = u at le
  cases u with
  | notANumber => exact le.elim nofun nofun
  | infinity sign =>
    cases sign with
    | positive => exact ⟨_, .infinity⟩
    | negative => exact le.elim nofun nofun
  | zero sign => exact ⟨_, .zero sign⟩
  | finite sign m e pos =>
    cases sign with
    | positive => exact ⟨_, .finite m e pos⟩
    | negative => exact le.elim nofun nofun

theorem one_le_iff_worth {x : Float} : 1.0 ≤ x ↔ ∃ z, IsWorth x z ∧ 1 ≤ z := by
  constructor
  · intro le
    obtain ⟨z, worth⟩ := exists_worth_of_one_le le
    exact ⟨z, worth, (le_iff_worth isWorth_one worth).mp le⟩
  · rintro ⟨z, worth, le⟩
    exact (le_iff_worth isWorth_one worth).mpr le

theorem isNaN_of_one_le {x : Float} (le : 1.0 ≤ x) : x.isNaN = false := by
  obtain ⟨z, worth, -⟩ := one_le_iff_worth.mp le
  exact worth.isNaN

end Rounding

namespace Settings

open Rounding

/-- Every field is in its range. The factor is compared as a float, and is a number. -/
structure InRange (s : Settings) : Prop where
  threadCount : 0 < s.threadCount
  pollIntervalMs : 0 < s.pollIntervalMs
  backoffFactor : 1.0 ≤ s.retry.backoffFactor
  factorNumber : s.retry.backoffFactor.isNaN = false
  maxIntervalMs : s.retry.initialIntervalMs ≤ s.retry.maxIntervalMs
  connectTimeoutMs : 0 < s.transport.connectTimeoutMs
  callTimeoutMs : 0 < s.transport.callTimeoutMs

/-- Every field that was in its range is as before, and so are those that have no range. -/
structure Spares (before after : Settings) : Prop where
  threadCount : 0 < before.threadCount → after.threadCount = before.threadCount
  pollIntervalMs : 0 < before.pollIntervalMs → after.pollIntervalMs = before.pollIntervalMs
  backoffFactor : 1.0 ≤ before.retry.backoffFactor →
    after.retry.backoffFactor = before.retry.backoffFactor
  maxIntervalMs : before.retry.initialIntervalMs ≤ before.retry.maxIntervalMs →
    after.retry.maxIntervalMs = before.retry.maxIntervalMs
  connectTimeoutMs : 0 < before.transport.connectTimeoutMs →
    after.transport.connectTimeoutMs = before.transport.connectTimeoutMs
  callTimeoutMs : 0 < before.transport.callTimeoutMs →
    after.transport.callTimeoutMs = before.transport.callTimeoutMs
  initialIntervalMs : after.retry.initialIntervalMs = before.retry.initialIntervalMs
  maxRetries : after.retry.maxRetries = before.retry.maxRetries

variable {s before after : Settings}

theorem Spares.eq (spares : Spares before after) (fits : before.InRange) : after = before := by
  obtain ⟨interval, threads, ⟨initial, factor, cap, retries⟩, ⟨connect, call⟩⟩ := after
  obtain rfl := spares.threadCount fits.threadCount
  obtain rfl := spares.pollIntervalMs fits.pollIntervalMs
  obtain rfl := spares.backoffFactor fits.backoffFactor
  obtain rfl := spares.maxIntervalMs fits.maxIntervalMs
  obtain rfl := spares.connectTimeoutMs fits.connectTimeoutMs
  obtain rfl := spares.callTimeoutMs fits.callTimeoutMs
  obtain rfl := spares.initialIntervalMs
  obtain rfl := spares.maxRetries
  rfl

theorem factorFits_iff {x : Float} : factorFits x = true ↔ 1.0 ≤ x := decide_eq_true_iff

theorem restored_pos {n d : UInt64} (pos : 0 < d) : 0 < if n = 0 then d else n := by
  split
  · exact pos
  · exact UInt64.pos_iff_ne_zero.mpr ‹_›

theorem restored_of_pos {n d : UInt64} (pos : 0 < n) : (if n = 0 then d else n) = n :=
  if_neg (UInt64.pos_iff_ne_zero.mp pos)

theorem Retry.one_le_corrected (r : Retry) : 1.0 ≤ r.corrected.backoffFactor := by
  by_cases fits : factorFits r.backoffFactor = true
  · rw [corrected, if_pos fits]
    exact factorFits_iff.mp fits
  · have least : (1.0 : Float) ≤ 1.0 := by decide
    rw [corrected, if_neg fits]
    exact least

theorem Retry.initial_le_corrected (r : Retry) :
    r.corrected.initialIntervalMs ≤ r.corrected.maxIntervalMs := by
  by_cases low : r.maxIntervalMs < r.initialIntervalMs
  · rw [corrected, if_pos low]
    exact UInt64.le_refl _
  · rw [corrected, if_neg low]
    exact UInt64.not_lt.mp low

theorem inRange_corrected (s : Settings) : s.corrected.InRange where
  threadCount := restored_pos (by decide)
  pollIntervalMs := restored_pos (by decide)
  backoffFactor := s.retry.one_le_corrected
  factorNumber := isNaN_of_one_le s.retry.one_le_corrected
  maxIntervalMs := s.retry.initial_le_corrected
  connectTimeoutMs := restored_pos (by decide)
  callTimeoutMs := restored_pos (by decide)

theorem spares_corrected (s : Settings) : Spares s s.corrected where
  threadCount := restored_of_pos
  pollIntervalMs := restored_of_pos
  backoffFactor fits := if_pos (factorFits_iff.mpr fits)
  maxIntervalMs fits := if_neg (UInt64.not_lt.mpr fits)
  connectTimeoutMs := restored_of_pos
  callTimeoutMs := restored_of_pos
  initialIntervalMs := rfl
  maxRetries := rfl

theorem corrected_of_inRange (fits : s.InRange) : s.corrected = s := (spares_corrected s).eq fits

theorem correctionEvents_eq_nil_iff :
    s.correctionEvents = [] ↔ 0 < s.threadCount ∧ 0 < s.pollIntervalMs ∧
      1.0 ≤ s.retry.backoffFactor ∧ s.retry.initialIntervalMs ≤ s.retry.maxIntervalMs := by
  simp [correctionEvents, corrections, UInt64.pos_iff_ne_zero, factorFits_iff, UInt64.not_lt]

theorem correctionEvents_of_inRange (fits : s.InRange) : s.correctionEvents = [] :=
  correctionEvents_eq_nil_iff.mpr
    ⟨fits.threadCount, fits.pollIntervalMs, fits.backoffFactor, fits.maxIntervalMs⟩

theorem inRange_of_loaded {path : String} {file : File} {env : Environment}
    (loaded : (load path file env).settings = .ok s) : s.InRange := by
  rw [load_settings] at loaded
  cases read : file.settings with
  | error e =>
    rw [read] at loaded
    cases loaded
  | ok before =>
    rw [read] at loaded
    cases loaded
    exact inRange_corrected _

/-- Corrected settings are in range, and what was in range before is as it was. Settings in range are
not changed, and nothing is said about them, so to correct settings once more does nothing; and settings
that were loaded are in range. -/
theorem corrects_out_of_range_only (s : Settings) :
    s.corrected.InRange ∧ Spares s s.corrected ∧
    (s.InRange → s.corrected = s ∧ s.correctionEvents = []) ∧
    s.corrected.corrected = s.corrected ∧ s.corrected.correctionEvents = [] ∧
    ∀ path file env, (load path file env).settings = .ok s → s.InRange := by
  have fits := inRange_corrected s
  exact ⟨fits, spares_corrected s,
    fun fits => ⟨corrected_of_inRange fits, correctionEvents_of_inRange fits⟩,
    corrected_of_inRange fits, correctionEvents_of_inRange fits, fun _ _ _ => inRange_of_loaded⟩

/-- One field in range among others that are not, with a factor that is no number. -/
def neglected : Settings := ⟨0, 0, ⟨2000, 0.0 / 0.0, 1000, 5⟩, ⟨0, 750⟩⟩

theorem corrects_out_of_range_only_neglected :
    default.InRange ∧ default.corrected = default ∧
      neglected.corrected.transport.callTimeoutMs = 750 := by
  have fits : default.InRange :=
    ⟨by decide, by decide, by decide, by decide, by decide, by decide, by decide⟩
  obtain ⟨-, -, unchanged, -⟩ := corrects_out_of_range_only default
  obtain ⟨-, spares, -⟩ := corrects_out_of_range_only neglected
  exact ⟨fits, (unchanged fits).1, spares.callTimeoutMs (by decide)⟩

end Settings

end SessionCourier
