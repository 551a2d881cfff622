import Mathlib.Data.List.Basic
import SessionCourier.Metrics.Snapshot
import SessionCourier.Proofs.Metrics.Lookups

set_option autoImplicit false

namespace SessionCourier.Metrics

inductive Access where
  | increment (name : String) (labels : List Label) (n : UInt64)
  | set (name : String) (labels : List Label) (bits : UInt64)
  | observe (name : String) (labels : List Label) (value : Float)
  | counter (name : String) (labels : List Label)
  | gauge (name : String) (labels : List Label)
  | summary (name : String) (labels : List Label)
  | snapshot

/-- A series of one kind. -/
structure Slot where
  kind : Kind
  series : Series
  deriving DecidableEq

namespace Update

def slot : Update → Slot
  | .increment key _ => ⟨.counter, key⟩
  | .set key _ => ⟨.gauge, key⟩
  | .observe key _ => ⟨.histogram, key⟩

variable {u : Update} {k : Series}

theorem added_eq_none (other : u.slot ≠ ⟨.counter, k⟩) : u.added k = none := by
  cases u with
  | increment key n => exact if_neg fun same : k = key => other (same ▸ rfl)
  | _ => rfl

theorem assigned_eq_none (other : u.slot ≠ ⟨.gauge, k⟩) : u.assigned k = none := by
  cases u with
  | set key bits => exact if_neg fun same : k = key => other (same ▸ rfl)
  | _ => rfl

theorem observed_eq_none (other : u.slot ≠ ⟨.histogram, k⟩) : u.observed k = none := by
  cases u with
  | observe key value => exact if_neg fun same : k = key => other (same ▸ rfl)
  | _ => rfl

end Update

def Access.update? : Access → Option Update
  | .increment name labels n => some (.increment (.of name labels) n)
  | .set name labels bits => some (.set (.of name labels) bits)
  | .observe name labels value => some (.observe (.of name labels) value)
  | _ => none

def log (accesses : List Access) : List Update := accesses.filterMap Access.update?

/-- What was observed under a name and labels, in the order of the observations. -/
def observed (accesses : List Access) (name : String) (labels : List Label) : List Float :=
  (log accesses).filterMap (·.observed (.of name labels))

/-- What a read of a slot answers. -/
inductive Reading where
  | count (n : UInt64)
  | level (bits : UInt64)
  | spread (summary : Summary)

/-- What stands in a slot; of a histogram, its values in their order. -/
inductive Contents where
  | count (n : UInt64)
  | level (bits : UInt64)
  | list (values : List Float)

def Contents.reading? : Contents → Option Reading
  | .count n => some (.count n)
  | .level bits => some (.level bits)
  | .list values => (ascending? values).map fun sorted => .spread (.ofAscending sorted)

namespace Store

/-- The store that an access leaves. A read that breaks off has no result. -/
def access? (s : Store) : Access → Option Store
  | .increment name labels n => some (s.apply (.increment (.of name labels) n))
  | .set name labels bits => some (s.apply (.set (.of name labels) bits))
  | .observe name labels value => some (s.apply (.observe (.of name labels) value))
  | .counter _ _ => some s
  | .gauge _ _ => some s
  | .summary name labels => s.summarised? (· = .of name labels)
  | .snapshot => s.summarised? fun _ => true

def read? (s : Store) (slot : Slot) : Option Reading :=
  match slot.kind with
  | .counter => some (.count (s.counter slot.series))
  | .gauge => some (.level (s.gauge slot.series))
  | .histogram => (s.summary? slot.series).map .spread

def held (s : Store) (slot : Slot) : Contents :=
  match slot.kind with
  | .counter => .count (s.counter slot.series)
  | .gauge => .level (s.gauge slot.series)
  | .histogram => .list (s.observations slot.series)

/-- The series of a kind in the order of their table. -/
def listed (s : Store) : Kind → List Series
  | .counter => s.counters.map Prod.fst
  | .gauge => s.gauges.map Prod.fst
  | .histogram => s.histograms.map Prod.fst

variable {s t : Store} {slot : Slot}

theorem read?_eq_reading? (s : Store) (slot : Slot) : s.read? slot = (s.held slot).reading? := by
  obtain ⟨kind, k⟩ := slot
  cases kind with
  | counter => rfl
  | gauge => rfl
  | histogram => exact Option.map_map _ _ _

theorem held_apply_of_ne {u : Update} (other : u.slot ≠ slot) :
    (s.apply u).held slot = s.held slot := by
  obtain ⟨kind, k⟩ := slot
  cases kind with
  | counter =>
    apply congrArg Contents.count
    rw [counter_apply, Update.added_eq_none other]
    exact UInt64.add_zero _
  | gauge =>
    apply congrArg Contents.level
    rw [gauge_apply, Update.assigned_eq_none other]
    rfl
  | histogram =>
    apply congrArg Contents.list
    rw [observations_apply, Update.observed_eq_none other]
    exact List.append_nil _

theorem listed_apply_perm (s : Store) (u : Update) (kind : Kind) :
    ((s.apply u).listed kind).Perm
      (if u.slot.kind = kind then (s.listed kind).insert u.slot.series else s.listed kind) := by
  cases u with
  | increment key n =>
    cases kind with
    | counter => exact Table.keys_update_perm _ _ _ _
    | gauge => exact .refl _
    | histogram => exact .refl _
  | set key bits =>
    cases kind with
    | counter => exact .refl _
    | gauge => exact Table.keys_update_perm _ _ _ _
    | histogram => exact .refl _
  | observe key value =>
    cases kind with
    | counter => exact .refl _
    | gauge => exact .refl _
    | histogram => exact Table.keys_update_perm _ _ _ _

theorem mem_listed_apply {u : Update} :
    slot.series ∈ (s.apply u).listed slot.kind ↔
      slot = u.slot ∨ slot.series ∈ s.listed slot.kind := by
  rw [(listed_apply_perm s u slot.kind).mem_iff]
  obtain ⟨kind, k⟩ := slot
  by_cases same : u.slot.kind = kind
  · subst same
    rw [if_pos rfl, List.mem_insert_iff, Slot.mk.injEq, and_iff_right rfl]
  · have other : (⟨kind, k⟩ : Slot) ≠ u.slot := fun eq => same (congrArg Slot.kind eq).symm
    rw [if_neg same, or_iff_right other]

theorem Disturbed.listed (disturbed : s.Disturbed t) (kind : Kind) :
    t.listed kind = s.listed kind := by
  cases kind with
  | counter => exact congrArg (List.map Prod.fst) disturbed.counters
  | gauge => exact congrArg (List.map Prod.fst) disturbed.gauges
  | histogram => exact disturbed.rows.keys

end Store

/-- What an access may do to a store. After a read that broke off, the store is used on. -/
inductive Step (s : Store) (a : Access) (t : Store) : Prop
  | answered : s.access? a = some t → Step s a t
  | brokenOff : s.access? a = none → s.Disturbed t → Step s a t

namespace Step

variable {s t : Store} {a : Access} {k : Series}

theorem access?_of_update {u : Update} (update : a.update? = some u) : s.access? a = some (s.apply u) := by
  cases a <;> cases update <;> rfl

theorem inv (step : Step s a t) :
    (∃ u, a.update? = some u ∧ t = s.apply u) ∨ a.update? = none ∧ s.Disturbed t := by
  cases update : a.update? with
  | some u =>
    have answer := access?_of_update (s := s) update
    cases step with
    | answered answer' => exact .inl ⟨u, rfl, Option.some_inj.mp (answer'.symm.trans answer)⟩
    | brokenOff breaks => cases breaks.symm.trans answer
  | none =>
    refine .inr ⟨rfl, ?_⟩
    cases step with
    | brokenOff _ disturbed => exact disturbed
    | answered answer =>
      cases a with
      | increment name labels n => cases update
      | set name labels bits => cases update
      | observe name labels value => cases update
      | counter name labels =>
        cases answer
        exact .refl s
      | gauge name labels =>
        cases answer
        exact .refl s
      | summary name labels => exact Store.disturbed_of_summarised answer
      | snapshot => exact Store.disturbed_of_summarised answer

theorem eq_apply {u : Update} (step : Step s a t) (update : a.update? = some u) :
    t = s.apply u := by
  rcases step.inv with ⟨u', update', made⟩ | ⟨read, _⟩
  · rw [made, Option.some_inj.mp (update'.symm.trans update)]
  · cases read.symm.trans update

theorem counter (step : Step s a t) (k : Series) :
    t.counter k = s.counter k + (a.update?.bind (·.added k)).getD 0 := by
  rcases step.inv with ⟨u, update, rfl⟩ | ⟨read, disturbed⟩
  · rw [update]
    exact Store.counter_apply s k u
  · rw [read, Store.counter, disturbed.counters]
    exact (UInt64.add_zero _).symm

theorem gauge (step : Step s a t) (k : Series) :
    t.gauge k = (a.update?.bind (·.assigned k)).getD (s.gauge k) := by
  rcases step.inv with ⟨u, update, rfl⟩ | ⟨read, disturbed⟩
  · rw [update]
    exact Store.gauge_apply s k u
  · rw [read, Store.gauge, disturbed.gauges]
    rfl

theorem observations (step : Step s a t) (k : Series) :
    ∃ before, Disturbed (s.observations k) before ∧
      t.observations k = before ++ (a.update?.bind (·.observed k)).toList := by
  rcases step.inv with ⟨u, update, rfl⟩ | ⟨read, disturbed⟩
  · rw [update]
    exact ⟨_, .untouched, Store.observations_apply s k u⟩
  · rw [read]
    refine ⟨_, disturbed.rows.lookup k, ?_⟩
    exact (List.append_nil _).symm

end Step

end SessionCourier.Metrics
