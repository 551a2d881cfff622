import SessionCourier.Proofs.Metrics.Labels

set_option autoImplicit false

namespace SessionCourier.Metrics

variable {accesses others : List Access} {s t : Store} {slot : Slot}

theorem toNat_sum (ns : List UInt64) : ns.sum.toNat = (ns.map UInt64.toNat).sum % 2 ^ 64 := by
  induction ns with
  | nil => rfl
  | cons n ns ih =>
    rw [List.sum_cons, UInt64.toNat_add, ih, List.map_cons, List.sum_cons, Nat.add_mod_mod]

theorem filterMap_of_slot {β : Type} {f : Update → Option β}
    (blind : ∀ u : Update, u.slot ≠ slot → f u = none) (updates : List Update) :
    (updates.filter (·.slot = slot)).filterMap f = updates.filterMap f := by
  rw [List.filterMap_filter]
  apply List.filterMap_congr
  intro u _
  split
  · rfl
  · rename_i other
    exact (blind u fun same => other (decide_eq_true same)).symm

namespace Told

theorem summary?_of_numbers (told : Told accesses s) {k : Series}
    (numbers : Numbers ((log accesses).filterMap (·.observed k))) :
    s.summary? k = some (.ofAscending (Metrics.ascending ((log accesses).filterMap (·.observed k)))) := by
  rw [Store.summary?, ascending?_numbers (numbers.of_perm (told.observations k)),
    told.ascending k numbers]
  rfl

/-- Only a long list of values that are not all numbers can break a summary off. -/
theorem strange_of_none (told : Told accesses s) {k : Series} (breaks : s.summary? k = none) :
    20 < ((log accesses).filterMap (·.observed k)).length ∧
      ∃ x ∈ (log accesses).filterMap (·.observed k), x.isNaN = true := by
  rw [Store.summary?, Option.map_eq_none_iff] at breaks
  constructor
  · rw [← (told.observations k).length_eq]
    by_contra few
    obtain ⟨sorted, sorts⟩ := ascending?_few (Nat.not_lt.mp few)
    cases breaks.symm.trans sorts
  · by_contra numbers
    simp only [not_exists, not_and, Bool.not_eq_true] at numbers
    have here := Numbers.of_perm numbers (told.observations k)
    cases breaks.symm.trans (ascending?_numbers here)

theorem read?_eq (told : Told accesses s) (told' : Told others t)
    (same : (log others).filter (·.slot = slot) = (log accesses).filter (·.slot = slot))
    (numbers : slot.kind = .histogram →
      Numbers ((log accesses).filterMap (·.observed slot.series))) :
    t.read? slot = s.read? slot := by
  have alike {β : Type} {f : Update → Option β} (blind : ∀ u : Update, u.slot ≠ slot → f u = none) :
      (log others).filterMap f = (log accesses).filterMap f := by
    rw [← filterMap_of_slot blind, same, filterMap_of_slot blind]
  obtain ⟨kind, k⟩ := slot
  cases kind with
  | counter =>
    apply congrArg fun n => some (Reading.count n)
    rw [told'.counter, told.counter, alike fun u => Update.added_eq_none]
  | gauge =>
    apply congrArg fun bits => some (Reading.level bits)
    rw [told'.gauge, told.gauge, alike fun u => Update.assigned_eq_none]
  | histogram =>
    have observed := alike fun u => Update.observed_eq_none (u := u) (k := k)
    have numbers := numbers rfl
    apply congrArg (Option.map Reading.spread)
    rw [told.summary?_of_numbers numbers, told'.summary?_of_numbers (observed ▸ numbers), observed]

end Told

/-- What the reads of a store find after any accesses to it. A counter holds the sum, modulo `2 ^ 64`,
of what was added under its name and labels, a gauge the bits of the last value that was set. A summary
is taken over exactly the values that were observed, for numbers in ascending order; there is none only
if one of more than twenty values is no number. An update leaves what stands in other slots as it is;
what is read of a slot is told by the updates of this slot; and two updates of different slots may be
made in either order, with the same stores afterwards. -/
theorem reads_of_log (accesses : List Access) (s : Store) (reached : Reached accesses s) :
    (∀ (name : String) (labels : List Label),
      (s.counter (.of name labels)).toNat =
        (((log accesses).filterMap (·.added (.of name labels))).map UInt64.toNat).sum % 2 ^ 64 ∧
      s.gauge (.of name labels) =
        ((log accesses).filterMap (·.assigned (.of name labels))).getLast?.getD
          (0.0 : Float).toBits ∧
      (∀ summary, s.summary? (.of name labels) = some summary →
        ∃ values, values.Perm (observed accesses name labels) ∧ summary = .ofAscending values) ∧
      (s.summary? (.of name labels) = none → 20 < (observed accesses name labels).length ∧
        ∃ x ∈ observed accesses name labels, x.isNaN = true) ∧
      (Numbers (observed accesses name labels) →
        s.summary? (.of name labels) =
          some (.ofAscending (ascending (observed accesses name labels))) ∧
        (ascending (observed accesses name labels)).Pairwise fun x y => ¬ y < x)) ∧
    (∀ (u : Update) (slot : Slot), u.slot ≠ slot → (s.apply u).held slot = s.held slot) ∧
    (∀ others t slot, Reached others t →
      (log others).filter (·.slot = slot) = (log accesses).filter (·.slot = slot) →
      (slot.kind = .histogram → Numbers ((log accesses).filterMap (·.observed slot.series))) →
        t.read? slot = s.read? slot) ∧
    (∀ before u v after here there, accesses = before ++ [u, v] ++ after →
      u.update? = some here → v.update? = some there → here.slot ≠ there.slot →
        Reached (before ++ [v, u] ++ after) s) := by
  have told := reached.told
  refine ⟨fun name labels => ⟨?_, told.gauge _, fun summary given => ?_, told.strange_of_none,
    fun numbers => ⟨told.summary?_of_numbers numbers, pairwise_ascending numbers⟩⟩,
    fun u slot => Store.held_apply_of_ne, fun others t slot reached' same numbers =>
      told.read?_eq reached'.told same numbers, ?_⟩
  · rw [told.counter, toNat_sum]
  · obtain ⟨values, sorts, rfl⟩ := Option.map_eq_some_iff.mp given
    exact ⟨values, (ascending?_perm sorts).trans (told.observations _), rfl⟩
  · rintro before u v after here there rfl one two apart
    exact reached.swap one two apart

/-- Two counters, one of which wraps, a gauge that is no number and a histogram, two of them of one
name and with labels in either order, and a summary in between. -/
def mingled : List Access :=
  [.increment "sent" [("to", "s1"), ("by", "w1")] 5, .set "sent" [] 0x7ff8000000000001,
    .observe "sent" [] 2.0, .increment "lost" [] 0xffffffffffffffff, .summary "sent" [],
    .increment "lost" [] 3, .observe "sent" [] 1.0, .increment "sent" [("by", "w1"), ("to", "s1")] 1]

theorem reads_of_log_mingled :
    ∃ s summary, Reached mingled s ∧
      (s.counter (.of "sent" [("by", "w1"), ("to", "s1")])).toNat = 6 ∧
      (s.counter (.of "lost" [])).toNat = 2 ∧
      s.gauge (.of "sent" []) = 0x7ff8000000000001 ∧
      s.summary? (.of "sent" []) = some summary ∧ summary.count = 2 ∧ summary.p50 = 2.0 ∧
      Reached (mingled.take 5 ++ [mingled[6], mingled[5]] ++ mingled.drop 7) s := by
  obtain ⟨s, reached⟩ := Reached.exists_reached mingled
  obtain ⟨reads, -, -, swapped⟩ := reads_of_log mingled s reached
  have plain (name : String) : Series.of name [] = ⟨name, []⟩ := of_sorted .nil
  have straight : Series.of "sent" [("by", "w1"), ("to", "s1")] =
      ⟨"sent", [("by", "w1"), ("to", "s1")]⟩ := of_sorted (by decide)
  have turned : Series.of "sent" [("to", "s1"), ("by", "w1")] =
      ⟨"sent", [("by", "w1"), ("to", "s1")]⟩ :=
    ((of_eq_iff_perm (by decide)).mpr (.swap _ _ _)).trans straight
  have logged : log mingled =
      [.increment ⟨"sent", [("by", "w1"), ("to", "s1")]⟩ 5, .set ⟨"sent", []⟩ 0x7ff8000000000001,
        .observe ⟨"sent", []⟩ 2.0, .increment ⟨"lost", []⟩ 0xffffffffffffffff,
        .increment ⟨"lost", []⟩ 3, .observe ⟨"sent", []⟩ 1.0,
        .increment ⟨"sent", [("by", "w1"), ("to", "s1")]⟩ 1] := by
    simp [log, mingled, List.filterMap_cons, Access.update?, plain, turned, straight]
  have values : observed mingled "sent" [] = [2.0, 1.0] := by
    rw [observed, logged, plain]
    rfl
  have numbers : Numbers (observed mingled "sent" []) := by
    rw [values]
    decide
  have sorted : ascending [2.0, 1.0] = [1.0, 2.0] := by
    have less : (1.0 : Float) < 2.0 := by decide +kernel
    simp [ascending, List.mergeSort, List.MergeSort.Internal.splitInTwo, less]
  have summary := ((reads "sent" []).2.2.2.2 numbers).1
  rw [values, sorted] at summary
  refine ⟨s, _, reached, ?_, ?_, ?_, summary, rfl, rfl, swapped _ _ _ _ _ _ rfl rfl rfl ?_⟩
  · rw [(reads "sent" [("by", "w1"), ("to", "s1")]).1, logged, straight]
    rfl
  · rw [(reads "lost" []).1, logged, plain]
    rfl
  · rw [(reads "sent" []).2.1, logged, plain]
    rfl
  · exact fun same => absurd (congrArg Slot.kind same) (by decide)

theorem exists_observed (name : String) (labels : List Label) (values : List Float) :
    ∃ s, Reached (values.map (.observe name labels)) s ∧
      s.observations (.of name labels) = values := by
  induction values using List.reverseRecOn with
  | nil => exact ⟨.empty, .empty, rfl⟩
  | append_singleton values x ih =>
    obtain ⟨s, reached, stands⟩ := ih
    refine ⟨s.apply (.observe (.of name labels) x), ?_, ?_⟩
    · rw [List.map_append]
      exact reached.step (.answered rfl)
    · rw [Store.observations_apply, stands, Update.observed, if_pos rfl]
      rfl

theorem observed_map (name : String) (labels : List Label) (values : List Float) :
    observed (values.map (.observe name labels)) name labels = values := by
  simp [observed, log, List.filterMap_map, Function.comp_def, Access.update?, Update.observed]

/-- A summary that is not taken over the values that were observed, as there is none. -/
theorem no_summary_of_contradiction :
    ∃ s, Reached (contradiction.map (.observe "wait" [])) s ∧
      observed (contradiction.map (.observe "wait" [])) "wait" [] = contradiction ∧
      s.summary? (.of "wait" []) = none := by
  obtain ⟨s, reached, stands⟩ := exists_observed "wait" [] contradiction
  refine ⟨s, reached, observed_map _ _ _, ?_⟩
  rw [Store.summary?, stands, ascending?_contradiction]
  rfl

end SessionCourier.Metrics
