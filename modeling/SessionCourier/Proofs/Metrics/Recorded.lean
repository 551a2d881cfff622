import Mathlib.Data.List.Induction
import SessionCourier.Metrics.Deliveries
import SessionCourier.Proofs.Metrics.Lookups

set_option autoImplicit false

namespace SessionCourier.Metrics

namespace Happening

def delivered? : Happening → Option Method
  | .delivered m _ => some m
  | _ => none

def failed? : Happening → Option Method
  | .failed m => some m
  | _ => none

def granted? : Happening → Option Resource
  | .granted r => some r
  | _ => none

def revoked? : Happening → Option Resource
  | .revoked r => some r
  | _ => none

/-- The counter that a happening adds to. -/
def counted : Happening → Series
  | .granted r => grants r
  | .revoked r => revokes r
  | .delivered m _ => deliveries m
  | .failed m => failures m
  | .timedOut => timeouts

end Happening

theorem byMethod_eq (name : String) (m : Method) : byMethod name m = ⟨name, [("method", m.label)]⟩ := by
  rw [byMethod, Series.of, List.mergeSort_singleton]

theorem byResource_eq (name : String) (r : Resource) :
    byResource name r = ⟨name, [("type", r.label)]⟩ := by
  rw [byResource, Series.of, List.mergeSort_singleton]

theorem method_label_inj {m m' : Method} : m.label = m'.label ↔ m = m' := by
  cases m <;> cases m' <;> simp [Method.label]

theorem resource_label_inj {r r' : Resource} : r.label = r'.label ↔ r = r' := by
  cases r <;> cases r' <;> simp [Resource.label]

theorem deliveries_eq_counted (m : Method) (h : Happening) :
    deliveries m = h.counted ↔ h.delivered? = some m := by
  cases h <;> simp [Happening.counted, Happening.delivered?, deliveries, failures, grants, revokes,
    timeouts, byMethod_eq, byResource_eq, Series.of, method_label_inj, eq_comm]

theorem failures_eq_counted (m : Method) (h : Happening) :
    failures m = h.counted ↔ h.failed? = some m := by
  cases h <;> simp [Happening.counted, Happening.failed?, deliveries, failures, grants, revokes,
    timeouts, byMethod_eq, byResource_eq, Series.of, method_label_inj, eq_comm]

theorem grants_eq_counted (r : Resource) (h : Happening) :
    grants r = h.counted ↔ h.granted? = some r := by
  cases h <;> simp [Happening.counted, Happening.granted?, deliveries, failures, grants, revokes,
    timeouts, byMethod_eq, byResource_eq, Series.of, resource_label_inj, eq_comm]

theorem revokes_eq_counted (r : Resource) (h : Happening) :
    revokes r = h.counted ↔ h.revoked? = some r := by
  cases h <;> simp [Happening.counted, Happening.revoked?, deliveries, failures, grants, revokes,
    timeouts, byMethod_eq, byResource_eq, Series.of, resource_label_inj, eq_comm]

theorem added_of_happening (k : Series) (h : Happening) :
    (h.updates.filterMap (·.added k)).sum = if k = h.counted then 1 else 0 := by
  cases h <;>
  · simp only [Happening.updates, Happening.counted, List.filterMap_cons, List.filterMap_nil,
      Update.added]
    split <;> simp_all

def recorded (hs : List Happening) : Store := hs.foldl Store.report .empty

theorem counter_recorded (k : Series) (hs : List Happening) :
    (recorded hs).counter k = UInt64.ofNat (hs.countP fun h => k = h.counted) := by
  induction hs using List.reverseRecOn with
  | nil => rfl
  | append_singleton hs h ih =>
    rw [recorded, List.foldl_append, List.foldl_cons, List.foldl_nil, Store.report,
      Store.counter_applyAll, added_of_happening, List.countP_append, List.countP_singleton]
    have ih : (hs.foldl Store.report Store.empty).counter k = _ := ih
    rw [ih]
    by_cases same : k = h.counted <;> simp [same]

theorem counter_of_picks {β : Type} [DecidableEq β] {k : Series} {pick : Happening → Option β} {b : β}
    (picks : ∀ h, k = h.counted ↔ pick h = some b) (hs : List Happening) :
    (recorded hs).counter k = UInt64.ofNat ((hs.filterMap pick).count b) := by
  rw [counter_recorded, List.count_eq_countP, List.countP_filterMap]
  refine congrArg UInt64.ofNat (List.countP_congr fun h _ => ?_)
  rw [decide_eq_true_iff, picks]
  cases pick h <;> simp

end SessionCourier.Metrics
