import Mathlib.Data.String.Basic
import SessionCourier.Proofs.Metrics.Reached

set_option autoImplicit false

namespace SessionCourier.Metrics

variable {name : String} {labels labels' : List Label}

theorem labelLe_eq : labelLe = Sorting.byKey Prod.fst := by
  funext a b
  rw [labelLe, Sorting.byKey, ← decide_not]
  exact decide_eq_decide.mpr not_lt

theorem of_sorted (sorted : labels.Pairwise fun a b => labelLe a b = true) :
    Series.of name labels = ⟨name, labels⟩ :=
  congrArg (Series.mk name) (List.mergeSort_of_pairwise sorted)

theorem labels_of (name : String) (labels : List Label) :
    (Series.of name labels).labels = labels.mergeSort (Sorting.byKey Prod.fst) := by
  rw [Series.of, labelLe_eq]

def valuesOf (label : String) (labels : List Label) : List String :=
  (labels.filter (·.1 = label)).map (·.2)

theorem valuesOf_eq_iff (label : String) :
    valuesOf label labels = valuesOf label labels' ↔
      Sorting.ofKey Prod.fst label labels = Sorting.ofKey Prod.fst label labels' := by
  have named (labels : List Label) :
      Sorting.ofKey Prod.fst label labels = (valuesOf label labels).map fun value => (label, value) := by
    rw [valuesOf, List.map_map, Sorting.ofKey]
    refine (List.map_id _).symm.trans (List.map_congr_left fun l mem => ?_)
    exact Prod.ext (of_decide_eq_true (List.mem_filter.mp mem).2) rfl
  constructor
  · intro same
    rw [named, named, same]
  · exact congrArg (List.map Prod.snd)

theorem of_eq_iff :
    Series.of name labels = Series.of name labels' ↔
      ∀ label, valuesOf label labels = valuesOf label labels' := by
  constructor
  · intro same label
    have sorted := congrArg Series.labels same
    rw [labels_of, labels_of] at sorted
    rw [valuesOf_eq_iff, ← Sorting.ofKey_mergeSort, sorted, Sorting.ofKey_mergeSort]
  · intro same
    have sorted := Sorting.eq_of_ofKey Prod.fst (Sorting.pairwise_mergeSort Prod.fst labels)
      (Sorting.pairwise_mergeSort Prod.fst labels') fun label => by
        rw [Sorting.ofKey_mergeSort, Sorting.ofKey_mergeSort]
        exact (valuesOf_eq_iff label).mp (same label)
    rw [Series.of, Series.of, labelLe_eq, sorted]

theorem of_labels (name : String) (labels : List Label) :
    Series.of name (Series.of name labels).labels = Series.of name labels := by
  apply of_sorted
  rw [labels_of, labelLe_eq]
  exact (Sorting.pairwise_mergeSort Prod.fst labels).imp decide_eq_true

theorem of_eq_iff_perm (distinct : (labels.map (·.1)).Nodup) :
    Series.of name labels = Series.of name labels' ↔ labels.Perm labels' := by
  have sorts := List.mergeSort_perm labels (Sorting.byKey Prod.fst)
  have sorts' := List.mergeSort_perm labels' (Sorting.byKey Prod.fst)
  constructor
  · intro same
    have sorted := congrArg Series.labels same
    rw [labels_of, labels_of] at sorted
    exact (sorts.symm.trans (.of_eq sorted)).trans sorts'
  · intro perm
    have sorted := (sorts.trans (perm.trans sorts'.symm)).eq_of_pairwise
      (fun a b mem mem' le le' => ?_) (Sorting.pairwise_mergeSort Prod.fst labels)
      (Sorting.pairwise_mergeSort Prod.fst labels')
    · rw [Series.of, Series.of, labelLe_eq, sorted]
    · exact List.inj_on_of_nodup_map distinct (sorts.mem_iff.mp mem)
        ((sorts'.trans perm.symm).mem_iff.mp mem') (le_antisymm le le')

def Access.mark (name : String) (labels : List Label) : Kind → Access
  | .counter => .increment name labels 1
  | .gauge => .set name labels 1
  | .histogram => .observe name labels 1.0

/-- What is read of the series that was marked, and of no other, is not what is read of a store that
was never used. -/
theorem exists_marked (kind : Kind) (name : String) (labels : List Label) :
    ∃ s, Reached [.mark name labels kind] s ∧
      ∀ k, s.read? ⟨kind, k⟩ = Store.empty.read? ⟨kind, k⟩ ↔ k ≠ .of name labels := by
  obtain ⟨u, update, slot⟩ : ∃ u, (Access.mark name labels kind).update? = some u ∧
      u.slot = ⟨kind, .of name labels⟩ := by
    cases kind <;> exact ⟨_, rfl, rfl⟩
  refine ⟨_, Reached.empty.step (.answered (Step.access?_of_update update)), fun k => ?_⟩
  constructor
  · rintro same rfl
    cases kind with
    | counter =>
      cases update
      have counted := Reading.count.inj (Option.some_inj.mp same)
      rw [Store.counter_apply, Update.added, if_pos rfl] at counted
      change (0 : UInt64) + 1 = 0 at counted
      exact absurd counted (by decide)
    | gauge =>
      cases update
      have level := Reading.level.inj (Option.some_inj.mp same)
      rw [Store.gauge_apply, Update.assigned, if_pos rfl] at level
      change (1 : UInt64) = (0.0 : Float).toBits at level
      exact absurd level (by decide)
    | histogram =>
      cases update
      have number : Numbers [1.0] := by decide
      have alone : ascending [1.0] = [1.0] := List.perm_singleton.mp (ascending_perm [1.0])
      have none_yet : Store.empty.observations (.of name labels) = [] := rfl
      simp only [Store.read?, Store.summary?, Store.observations_apply, none_yet, Update.observed,
        if_true, Option.toList_some, List.nil_append, ascending?_numbers number, alone,
        ascending?_nil, Option.map_some, Option.some_inj, Reading.spread.injEq] at same
      exact absurd (congrArg Summary.count same) (by decide)
  · intro other
    rw [Store.read?_eq_reading?, Store.read?_eq_reading?, Store.held_apply_of_ne]
    rw [slot]
    exact fun same => other (Slot.mk.inj same).2.symm

/-- Under two lists of labels the same is read of a kind of series, whatever was done to the store. -/
def ReadAlike (kind : Kind) (name : String) (labels labels' : List Label) : Prop :=
  ∀ accesses s, Reached accesses s →
    s.read? ⟨kind, .of name labels⟩ = s.read? ⟨kind, .of name labels'⟩

theorem readAlike_iff (kind : Kind) :
    ReadAlike kind name labels labels' ↔ Series.of name labels = Series.of name labels' := by
  constructor
  · intro alike
    by_contra apart
    obtain ⟨s, reached, marked⟩ := exists_marked kind name labels
    have seen := alike _ s reached
    have empty : Store.empty.read? ⟨kind, .of name labels⟩ =
        Store.empty.read? ⟨kind, .of name labels'⟩ := by cases kind <;> rfl
    rw [(marked (.of name labels')).mpr (Ne.symm apart), ← empty] at seen
    exact (marked (.of name labels)).mp seen rfl
  · intro same accesses s _
    rw [same]

/-- Lists of labels make one series exactly if they hold the same values in the same order under each
name. If no name comes twice in one of them, they do so exactly if each is the other in some order, and
then for counters, gauges and histograms alike: what is read under the one is what is read under the
other. Labels that were put into order once stay as they are. -/
theorem labels_make_series (name : String) (labels labels' : List Label) :
    (Series.of name labels = Series.of name labels' ↔
      ∀ label, valuesOf label labels = valuesOf label labels') ∧
    ((labels.map (·.1)).Nodup →
      (Series.of name labels = Series.of name labels' ↔ labels.Perm labels') ∧
      ∀ kind, ReadAlike kind name labels labels' ↔ labels.Perm labels') ∧
    Series.of name (Series.of name labels).labels = Series.of name labels :=
  ⟨of_eq_iff, fun distinct => ⟨of_eq_iff_perm distinct, fun kind =>
    (readAlike_iff kind).trans (of_eq_iff_perm distinct)⟩, of_labels name labels⟩

/-- Two labels in both orders, with an empty value, and an equal value under another name. -/
theorem labels_make_series_swapped :
    ReadAlike .histogram "wait" [("to", "s1"), ("by", "")] [("by", ""), ("to", "s1")] ∧
      ¬ReadAlike .histogram "wait" [("to", "s1"), ("by", "")] [("to", ""), ("by", "s1")] := by
  obtain ⟨-, alike, -⟩ := labels_make_series "wait" [("to", "s1"), ("by", "")]
    [("by", ""), ("to", "s1")]
  obtain ⟨-, apart, -⟩ := labels_make_series "wait" [("to", "s1"), ("by", "")]
    [("to", ""), ("by", "s1")]
  exact ⟨((alike (by decide)).2 .histogram).mpr (by decide),
    fun same => absurd (((apart (by decide)).2 .histogram).mp same) (by decide)⟩

end SessionCourier.Metrics
