import Mathlib.Data.List.Induction
import SessionCourier.Proofs.Metrics.Accesses

set_option autoImplicit false

/-!
# The stores that accesses lead to

A store keeps its series in tables whose order means nothing and may change at any time. What the reads
of a store find is told by the log of its updates: the sum of what was added, the last value that was
set, the values that were observed. That reads put values into order where they stand, or break off
while they do so, is not seen by later reads as long as all values are numbers.
-/

namespace SessionCourier.Metrics

/-- Tables of the same rows in another order. -/
structure Store.Rearranged (s t : Store) : Prop where
  counters : s.counters.Perm t.counters
  gauges : s.gauges.Perm t.gauges
  histograms : s.histograms.Perm t.histograms

inductive Reached : List Access → Store → Prop
  | empty : Reached [] .empty
  | step {accesses : List Access} {s t : Store} {a : Access} :
      Reached accesses s → Step s a t → Reached (accesses ++ [a]) t
  | rearranged {accesses : List Access} {s t : Store} :
      Reached accesses s → s.Rearranged t → Reached accesses t

namespace Table

variable {α : Type} {t t' : Table α} {k : Series} {a : α}

theorem mem_iff_lookup (distinct : (t.map Prod.fst).Nodup) : (k, a) ∈ t ↔ t.lookup k = some a := by
  induction t with
  | nil => simp
  | cons row rest ih =>
    obtain ⟨here, b⟩ := row
    rw [List.map_cons, List.nodup_cons] at distinct
    rw [lookup_row, List.mem_cons, Prod.mk.injEq, ih distinct.2]
    by_cases same : k = here
    · subst same
      have absent : rest.lookup k ≠ some a := fun found =>
        distinct.1 (List.mem_map.mpr ⟨(k, a), (ih distinct.2).mpr found, rfl⟩)
      simp [absent, eq_comm]
    · simp [same]

theorem lookup_perm (distinct : (t.map Prod.fst).Nodup) (perm : t.Perm t') (k : Series) :
    t'.lookup k = t.lookup k := by
  have distinct' : (t'.map Prod.fst).Nodup := (perm.map Prod.fst).nodup_iff.mp distinct
  refine Option.ext fun a => ?_
  rw [← mem_iff_lookup distinct, ← mem_iff_lookup distinct', perm.mem_iff]

end Table

namespace Store

variable {s t : Store}

namespace Rearranged

theorem refl (s : Store) : s.Rearranged s := ⟨.refl _, .refl _, .refl _⟩

theorem trans {r : Store} (first : r.Rearranged s) (second : s.Rearranged t) : r.Rearranged t :=
  ⟨first.counters.trans second.counters, first.gauges.trans second.gauges,
    first.histograms.trans second.histograms⟩

theorem apply (same : s.Rearranged t) (u : Update) : (s.apply u).Rearranged (t.apply u) := by
  cases u with
  | increment key n =>
    exact ⟨Table.update_perm same.counters _ _ _, same.gauges, same.histograms⟩
  | set key bits => exact ⟨same.counters, Table.update_perm same.gauges _ _ _, same.histograms⟩
  | observe key value =>
    exact ⟨same.counters, same.gauges, Table.update_perm same.histograms _ _ _⟩

theorem listed (same : s.Rearranged t) (kind : Kind) : (s.listed kind).Perm (t.listed kind) := by
  cases kind with
  | counter => exact same.counters.map Prod.fst
  | gauge => exact same.gauges.map Prod.fst
  | histogram => exact same.histograms.map Prod.fst

theorem held (same : s.Rearranged t) (distinct : ∀ kind, (s.listed kind).Nodup) (slot : Slot) :
    t.held slot = s.held slot := by
  obtain ⟨kind, k⟩ := slot
  cases kind with
  | counter =>
    have found := Table.lookup_perm (distinct .counter) same.counters k
    exact congrArg (fun row => Contents.count (row.getD 0)) found
  | gauge =>
    have found := Table.lookup_perm (distinct .gauge) same.gauges k
    exact congrArg (fun row => Contents.level (row.getD (0.0 : Float).toBits)) found
  | histogram =>
    have found := Table.lookup_perm (distinct .histogram) same.histograms k
    exact congrArg (fun row => Contents.list (row.getD [])) found

end Rearranged

theorem apply_comm (s : Store) {u v : Update} (apart : u.slot ≠ v.slot) :
    ((s.apply u).apply v).Rearranged ((s.apply v).apply u) := by
  have keys {kind : Kind} {key key' : Series} (apart : (⟨kind, key⟩ : Slot) ≠ ⟨kind, key'⟩) :
      key ≠ key' := fun same => apart (same ▸ rfl)
  cases u with
  | increment key n =>
    cases v with
    | increment key' n' => exact ⟨Table.update_comm _ (keys apart), .refl _, .refl _⟩
    | set key' bits => exact .refl _
    | observe key' value => exact .refl _
  | set key bits =>
    cases v with
    | increment key' n => exact .refl _
    | set key' bits' => exact ⟨.refl _, Table.update_comm _ (keys apart), .refl _⟩
    | observe key' value => exact .refl _
  | observe key value =>
    cases v with
    | increment key' n => exact .refl _
    | set key' bits => exact .refl _
    | observe key' value' => exact ⟨.refl _, .refl _, Table.update_comm _ (keys apart)⟩

end Store

namespace Reached

variable {accesses : List Access} {s : Store} {a : Access}

theorem inv (reached : Reached (accesses ++ [a]) s) :
    ∃ r t, Reached accesses r ∧ Step r a t ∧ t.Rearranged s := by
  generalize whole : accesses ++ [a] = all at reached
  induction reached with
  | empty => cases List.append_ne_nil_of_right_ne_nil accesses (List.cons_ne_nil a []) whole
  | step reached step _ =>
    obtain ⟨rfl, same⟩ := List.append_inj' whole rfl
    cases same
    exact ⟨_, _, reached, step, .refl _⟩
  | rearranged _ same ih =>
    obtain ⟨r, t, reached, step, earlier⟩ := ih whole
    exact ⟨r, t, reached, step, earlier.trans same⟩

/-- A store can be used on after each access, also after one that broke off. -/
theorem exists_reached (accesses : List Access) : ∃ s, Reached accesses s := by
  induction accesses using List.reverseRecOn with
  | nil => exact ⟨_, .empty⟩
  | append_singleton accesses a ih =>
    obtain ⟨s, reached⟩ := ih
    cases answer : s.access? a with
    | none => exact ⟨s, reached.step (.brokenOff answer (.refl s))⟩
    | some t => exact ⟨t, reached.step (.answered answer)⟩

/-- Where two updates of different slots follow each other, the other order leads to the same stores,
whatever comes after them. -/
theorem swap {before after : List Access} {u v : Access} {here there : Update}
    (one : u.update? = some here) (two : v.update? = some there) (apart : here.slot ≠ there.slot)
    (reached : Reached (before ++ [u, v] ++ after) s) :
    Reached (before ++ [v, u] ++ after) s := by
  -- By induction on what comes after, of which the last access is taken off.
  induction after using List.reverseRecOn generalizing s with
  | nil =>
    rw [List.append_nil, List.append_cons] at reached ⊢
    obtain ⟨t, t', reached, second, last⟩ := reached.inv
    obtain ⟨r, r', reached, first, between⟩ := reached.inv
    rw [first.eq_apply one] at between
    rw [second.eq_apply two] at last
    have other := (reached.step (.answered (Step.access?_of_update two))).step
      (.answered (Step.access?_of_update one))
    exact other.rearranged
      ((Store.apply_comm r apart.symm).trans ((between.apply there).trans last))
  | append_singleton after a ih =>
    rw [← List.append_assoc] at reached ⊢
    obtain ⟨r, t, reached, step, same⟩ := reached.inv
    exact ((ih reached).step step).rearranged same

end Reached

/-- What a store that was reached owes to the log. It lists each series that was updated, once, and
holds for each what the updates tell. -/
structure Told (accesses : List Access) (s : Store) : Prop where
  distinct : ∀ kind, (s.listed kind).Nodup
  listed : ∀ slot : Slot,
    slot.series ∈ s.listed slot.kind ↔ slot ∈ (log accesses).map Update.slot
  counter : ∀ k, s.counter k = ((log accesses).filterMap (·.added k)).sum
  gauge : ∀ k, s.gauge k =
    ((log accesses).filterMap (·.assigned k)).getLast?.getD (0.0 : Float).toBits
  observations : ∀ k, (s.observations k).Perm ((log accesses).filterMap (·.observed k))
  ascending : ∀ k, Numbers ((log accesses).filterMap (·.observed k)) →
    ascending (s.observations k) = ascending ((log accesses).filterMap (·.observed k))

theorem log_append (accesses : List Access) (a : Access) :
    log (accesses ++ [a]) = log accesses ++ a.update?.toList := by
  rw [log, List.filterMap_append, log, List.filterMap_cons]
  cases a.update? <;> rfl

theorem filterMap_log_append {β : Type} (f : Update → Option β) (accesses : List Access)
    (a : Access) :
    (log (accesses ++ [a])).filterMap f =
      (log accesses).filterMap f ++ (a.update?.bind f).toList := by
  rw [log_append, List.filterMap_append]
  cases a.update? with
  | none => rfl
  | some u => cases found : f u <;> simp [found]

namespace Told

variable {accesses others : List Access} {s t : Store} {a : Access} {k : Series}

theorem empty : Told [] .empty where
  distinct kind := by cases kind <;> exact .nil
  listed slot := by
    obtain ⟨kind, k⟩ := slot
    cases kind <;> exact iff_of_false List.not_mem_nil List.not_mem_nil
  counter _ := rfl
  gauge _ := rfl
  observations _ := .refl _
  ascending _ _ := rfl

theorem step (told : Told accesses s) (step : Step s a t) : Told (accesses ++ [a]) t where
  distinct kind := by
    rcases step.inv with ⟨u, -, rfl⟩ | ⟨-, disturbed⟩
    · rw [(Store.listed_apply_perm s u kind).nodup_iff]
      split
      · exact (told.distinct kind).insert
      · exact told.distinct kind
    · rw [disturbed.listed]
      exact told.distinct kind
  listed slot := by
    rw [log_append, List.map_append, List.mem_append, ← told.listed slot]
    rcases step.inv with ⟨u, update, rfl⟩ | ⟨read, disturbed⟩
    · rw [Store.mem_listed_apply, or_comm, update]
      simp
    · rw [disturbed.listed, read]
      simp
  counter k := by
    rw [step.counter, told.counter, filterMap_log_append, List.sum_append]
    cases a.update?.bind (·.added k) with
    | none => rfl
    | some n => exact congrArg _ (UInt64.add_zero n).symm
  gauge k := by
    rw [step.gauge, told.gauge, filterMap_log_append, List.getLast?_append]
    cases a.update?.bind (·.assigned k) <;> rfl
  observations k := by
    obtain ⟨before, disturbed, stands⟩ := step.observations k
    rw [stands, filterMap_log_append]
    exact (disturbed.perm.trans (told.observations k)).append_right _
  ascending k numbers := by
    obtain ⟨before, disturbed, stands⟩ := step.observations k
    rw [filterMap_log_append] at numbers ⊢
    have here := numbers.left.of_perm (told.observations k)
    have all := numbers.of_perm ((disturbed.perm.trans (told.observations k)).append_right _)
    -- Whatever order the read left, what is added to it is sorted as if it had left none.
    rw [stands, ← ascending_append all, disturbed.ascending_eq here,
      told.ascending k numbers.left, ascending_append numbers]

theorem rearranged (told : Told accesses s) (same : s.Rearranged t) : Told accesses t := by
  have held := same.held told.distinct
  refine ⟨fun kind => ?_, fun slot => ?_, fun k => ?_, fun k => ?_, fun k => ?_, fun k => ?_⟩
  · exact (same.listed kind).nodup_iff.mp (told.distinct kind)
  · exact (same.listed slot.kind).mem_iff.symm.trans (told.listed slot)
  · rw [Contents.count.inj (held ⟨.counter, k⟩)]
    exact told.counter k
  · rw [Contents.level.inj (held ⟨.gauge, k⟩)]
    exact told.gauge k
  · rw [Contents.list.inj (held ⟨.histogram, k⟩)]
    exact told.observations k
  · rw [Contents.list.inj (held ⟨.histogram, k⟩)]
    exact told.ascending k

end Told

theorem Reached.told {accesses : List Access} {s : Store} (reached : Reached accesses s) :
    Told accesses s := by
  induction reached with
  | empty => exact .empty
  | step _ step told => exact told.step step
  | rearranged _ same told => exact told.rearranged same

end SessionCourier.Metrics
