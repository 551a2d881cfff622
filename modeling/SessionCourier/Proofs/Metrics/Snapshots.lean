import Mathlib.Data.String.Basic
import SessionCourier.Proofs.Metrics.Reads

set_option autoImplicit false

namespace SessionCourier.Metrics

/-- Names come first, then labels one by one, each by its own name and then its value. -/
def Series.standing (k : Series) : String ×ₗ List (String ×ₗ String) :=
  toLex (k.name, k.labels.map toLex)

theorem labelsLe_iff (as bs : List Label) :
    labelsLe as bs = true ↔ as.map toLex ≤ bs.map toLex := by
  rw [← not_lt]
  induction as generalizing bs with
  | nil => simp [labelsLe]
  | cons a as ih =>
    cases bs with
    | nil => simp [labelsLe]
    | cons b bs =>
      obtain ⟨name, value⟩ := a
      obtain ⟨name', value'⟩ := b
      rw [labelsLe, List.map_cons, List.map_cons, List.cons_lt_cons_iff, Prod.Lex.toLex_lt_toLex,
        toLex_inj, Prod.mk.injEq]
      rcases lt_trichotomy name name' with less | rfl | more
      · simp [less, less.not_gt, less.ne']
      · rcases lt_trichotomy value value' with less | rfl | more
        · simp [less, less.not_gt, less.ne']
        · simp [ih]
        · simp [more, more.not_gt]
      · simp [more, more.not_gt]

theorem Series.le_iff (a b : Series) : a.le b = true ↔ a.standing ≤ b.standing := by
  rw [Series.le, Series.standing, Series.standing, Prod.Lex.toLex_le_toLex]
  rcases lt_trichotomy a.name b.name with less | same | more
  · simp [less]
  · simp [same, labelsLe_iff]
  · simp [more, more.not_gt, more.ne']

theorem Series.standing_inj {a b : Series} : a.standing = b.standing ↔ a = b := by
  obtain ⟨name, labels⟩ := a
  obtain ⟨name', labels'⟩ := b
  rw [Series.standing, Series.standing, toLex_inj, Prod.mk.injEq, Series.mk.injEq,
    List.map_inj_right fun _ _ => toLex_inj.mp]

/-- What a snapshot shows of a reading. -/
def Reading.value : Reading → Float
  | .count n => n.toFloat
  | .level bits => Float.ofBits bits
  | .spread summary => summary.p50

def Entry.slot (e : Entry) : Slot := ⟨e.kind, e.series⟩

/-- The place of a kind among series of one name and one list of labels. -/
def Kind.place : Kind → Nat
  | .counter => 0
  | .gauge => 1
  | .histogram => 2

/-- The order of a snapshot. -/
def Entry.Before (a b : Entry) : Prop :=
  a.series.standing < b.series.standing ∨ a.series = b.series ∧ a.kind.place < b.kind.place

theorem Entry.Before.asymm {a b : Entry} (before : a.Before b) : ¬b.Before a := by
  rcases before with less | ⟨same, less⟩
  · rintro (more | ⟨same, -⟩)
    · exact lt_asymm less more
    · exact less.ne (Series.standing_inj.mpr same.symm)
  · rintro (more | ⟨-, more⟩)
    · exact more.ne (Series.standing_inj.mpr same.symm)
    · exact lt_asymm less more

section Rows

variable {α : Type} {t : Table α} (shown : α → Float) (kind : Kind)

def entriesOf (t : Table α) : List Entry := t.map fun row => ⟨row.1, shown row.2, kind⟩

theorem mem_entriesOf (distinct : (t.map Prod.fst).Nodup) (absent : α) {e : Entry} :
    e ∈ entriesOf shown kind t ↔ e.kind = kind ∧ e.series ∈ t.map Prod.fst ∧
      e.value = shown ((t.lookup e.series).getD absent) := by
  rw [entriesOf, List.mem_map, List.mem_map]
  constructor
  · rintro ⟨⟨k, a⟩, mem, rfl⟩
    refine ⟨rfl, ⟨(k, a), mem, rfl⟩, ?_⟩
    rw [(Table.mem_iff_lookup distinct).mp mem, Option.getD_some]
  · rintro ⟨own, ⟨⟨k, a⟩, mem, rfl⟩, value⟩
    rw [(Table.mem_iff_lookup distinct).mp mem, Option.getD_some] at value
    exact ⟨(e.series, a), mem, by rw [← own, ← value]⟩

theorem pairwise_entriesOf (distinct : (t.map Prod.fst).Nodup) :
    (entriesOf shown kind t).Pairwise fun a b => a.series ≠ b.series :=
  List.pairwise_map.mpr (List.pairwise_map.mp distinct)

theorem kind_of_mem {e : Entry} (mem : e ∈ entriesOf shown kind t) : e.kind = kind := by
  obtain ⟨row, -, rfl⟩ := List.mem_map.mp mem
  rfl

end Rows

namespace Store

variable {s t : Store} {rows after : Table (List Float)} {shown : List Entry}

def entries (s : Store) : List Entry :=
  entriesOf UInt64.toFloat .counter s.counters ++ entriesOf Float.ofBits .gauge s.gauges ++
    entriesOf (fun values => (Summary.ofAscending values).p50) .histogram s.histograms

theorem snapshot?_eq_map (s : Store) :
    s.snapshot? = (s.summarised? fun _ => true).map fun t =>
      t.entries.mergeSort (Sorting.byKey fun e => e.series.standing) := by
  have order : (fun a b : Entry => a.series.le b.series) =
      Sorting.byKey fun e => e.series.standing := by
    funext a b
    rw [Bool.eq_iff_iff, Series.le_iff, Sorting.byKey, decide_eq_true_iff]
  rw [snapshot?, order]
  rfl

theorem lookup_sortRows? (sorts : sortRows? (fun _ => true) rows = some after) (k : Series) :
    ascending? ((rows.lookup k).getD []) = some ((after.lookup k).getD []) := by
  induction rows generalizing after with
  | nil =>
    cases sorts
    exact ascending?_nil
  | cons row rest ih =>
    obtain ⟨here, values⟩ := row
    obtain ⟨row', first, sorts⟩ := Option.bind_eq_some_iff.mp sorts
    obtain ⟨rest', there, sorts⟩ := Option.bind_eq_some_iff.mp sorts
    obtain ⟨sorted, ascends, rfl⟩ := Option.map_eq_some_iff.mp first
    cases sorts
    rw [lookup_row, lookup_row]
    split
    · exact ascends
    · exact ih there

theorem sortRows?_eq_none :
    sortRows? (fun _ => true) rows = none ↔ ∃ row ∈ rows, ascending? row.2 = none := by
  induction rows with
  | nil => simp [sortRows?]
  | cons row rest ih =>
    rw [sortRows?, List.exists_mem_cons_iff, ← ih]
    cases ascends : ascending? row.2 <;> cases sorts : sortRows? (fun _ => true) rest <;>
      simp [sortRow?, ascends]

theorem snapshot?_eq_none (distinct : (s.listed .histogram).Nodup) :
    s.snapshot? = none ↔ ∃ k, s.summary? k = none := by
  rw [snapshot?_eq_map, Option.map_eq_none_iff, summarised?, Option.map_eq_none_iff,
    sortRows?_eq_none]
  constructor
  · rintro ⟨⟨k, values⟩, mem, breaks⟩
    refine ⟨k, ?_⟩
    rw [summary?, observations, (Table.mem_iff_lookup distinct).mp mem, Option.getD_some, breaks]
    rfl
  · rintro ⟨k, breaks⟩
    rw [summary?, Option.map_eq_none_iff, observations] at breaks
    cases found : s.histograms.lookup k with
    | none =>
      rw [found, Option.getD_none, ascending?_nil] at breaks
      cases breaks
    | some values =>
      rw [found, Option.getD_some] at breaks
      exact ⟨(k, values), (Table.mem_iff_lookup distinct).mpr found, breaks⟩

theorem exists_reading (distinct : (s.listed .histogram).Nodup) (given : s.snapshot? = some shown)
    (slot : Slot) : ∃ reading, s.read? slot = some reading := by
  obtain ⟨kind, k⟩ := slot
  cases kind with
  | counter => exact ⟨_, rfl⟩
  | gauge => exact ⟨_, rfl⟩
  | histogram =>
    cases answer : s.summary? k with
    | none => cases given.symm.trans ((snapshot?_eq_none distinct).mpr ⟨k, answer⟩)
    | some summary => exact ⟨.spread summary, congrArg (Option.map Reading.spread) answer⟩

theorem mem_entries (distinct : ∀ kind, (s.listed kind).Nodup)
    (settled : s.summarised? (fun _ => true) = some t) {e : Entry} :
    e ∈ t.entries ↔
      e.series ∈ s.listed e.kind ∧ (s.read? e.slot).map Reading.value = some e.value := by
  have disturbed := disturbed_of_summarised settled
  obtain ⟨rows, sorts, rfl⟩ := Option.map_eq_some_iff.mp settled
  have keys : rows.map Prod.fst = s.listed .histogram := disturbed.rows.keys
  rw [entries, List.mem_append, List.mem_append, mem_entriesOf _ _ (distinct .counter) 0,
    mem_entriesOf _ _ (distinct .gauge) (0.0 : Float).toBits,
    mem_entriesOf _ _ (keys ▸ distinct .histogram) []]
  have read {x y : Float} : x = y ↔ some y = some x := eq_comm.trans Option.some_inj.symm
  obtain ⟨k, value, kind⟩ := e
  -- Of the three tables only that of the entry's own kind can show it.
  cases kind with
  | counter =>
    simp only [reduceCtorEq, false_and, true_and, or_false]
    exact and_congr_right fun _ => read
  | gauge =>
    simp only [reduceCtorEq, false_and, true_and, or_false, false_or]
    exact and_congr_right fun _ => read
  | histogram =>
    simp only [reduceCtorEq, false_and, true_and, false_or]
    rw [keys, Entry.slot, read?, summary?, observations, lookup_sortRows? sorts]
    exact and_congr_right fun _ => read

theorem pairwise_entries (distinct : ∀ kind, (s.listed kind).Nodup) :
    s.entries.Pairwise fun a b => a.series = b.series → a.kind.place < b.kind.place := by
  have alone {e e' : Entry} (apart : e.series ≠ e'.series) :
      e.series = e'.series → e.kind.place < e'.kind.place := fun same => absurd same apart
  refine List.pairwise_append.mpr ⟨List.pairwise_append.mpr ⟨?_, ?_, fun a mem b mem' _ => ?_⟩, ?_,
    fun a mem b mem' _ => ?_⟩
  · exact (pairwise_entriesOf _ _ (distinct .counter)).imp alone
  · exact (pairwise_entriesOf _ _ (distinct .gauge)).imp alone
  · rw [kind_of_mem _ _ mem, kind_of_mem _ _ mem']
    decide
  · exact (pairwise_entriesOf _ _ (distinct .histogram)).imp alone
  · rw [kind_of_mem _ _ mem']
    rcases List.mem_append.mp mem with mem | mem
    · rw [kind_of_mem _ _ mem]
      decide
    · rw [kind_of_mem _ _ mem]
      decide

theorem mem_snapshot (distinct : ∀ kind, (s.listed kind).Nodup) (given : s.snapshot? = some shown)
    {e : Entry} :
    e ∈ shown ↔
      e.series ∈ s.listed e.kind ∧ (s.read? e.slot).map Reading.value = some e.value := by
  rw [snapshot?_eq_map] at given
  obtain ⟨t, settled, rfl⟩ := Option.map_eq_some_iff.mp given
  rw [List.mem_mergeSort, mem_entries distinct settled]

theorem pairwise_snapshot (distinct : ∀ kind, (s.listed kind).Nodup)
    (given : s.snapshot? = some shown) : shown.Pairwise Entry.Before := by
  rw [snapshot?_eq_map] at given
  obtain ⟨t, settled, rfl⟩ := Option.map_eq_some_iff.mp given
  have listed := (disturbed_of_summarised settled).listed
  have ties := (pairwise_entries fun kind => listed kind ▸ distinct kind).imp fun told same =>
    told (Series.standing_inj.mp same)
  exact (Sorting.pairwise_mergeSort_of_ties _ ties).imp fun told =>
    told.imp_right (And.imp_left Series.standing_inj.mp)

theorem mem_slots_snapshot (distinct : ∀ kind, (s.listed kind).Nodup)
    (given : s.snapshot? = some shown) {slot : Slot} :
    slot ∈ shown.map Entry.slot ↔ slot.series ∈ s.listed slot.kind := by
  rw [List.mem_map]
  constructor
  · rintro ⟨e, mem, rfl⟩
    exact ((mem_snapshot distinct given).mp mem).1
  · intro listed
    obtain ⟨reading, answer⟩ := exists_reading (distinct .histogram) given slot
    refine ⟨⟨slot.series, reading.value, slot.kind⟩,
      (mem_snapshot distinct given).mpr ⟨listed, ?_⟩, rfl⟩
    rw [Entry.slot, answer]
    rfl

end Store

theorem nodup_slots {shown : List Entry} (order : shown.Pairwise Entry.Before) :
    (shown.map Entry.slot).Nodup := by
  refine List.pairwise_map.mpr (order.imp fun before same => ?_)
  obtain ⟨kind, series⟩ := Slot.mk.inj same
  rcases before with less | ⟨-, less⟩
  · exact less.ne (congrArg Series.standing series)
  · exact less.ne (congrArg Kind.place kind)

theorem snapshot?_of_told {accesses : List Access} {s t : Store} (told : Told accesses s)
    (told' : Told accesses t) (alike : ∀ slot, t.read? slot = s.read? slot) :
    t.snapshot? = s.snapshot? := by
  have breaks : t.snapshot? = none ↔ s.snapshot? = none := by
    rw [Store.snapshot?_eq_none (told.distinct .histogram),
      Store.snapshot?_eq_none (told'.distinct .histogram)]
    apply exists_congr
    intro k
    have same : (t.summary? k).map Reading.spread = (s.summary? k).map Reading.spread :=
      alike ⟨.histogram, k⟩
    rw [← Option.map_eq_none_iff, same, Option.map_eq_none_iff]
  cases given : s.snapshot? with
  | none => exact breaks.mpr given
  | some shown =>
    cases given' : t.snapshot? with
    | none => cases given.symm.trans (breaks.mp given')
    | some shown' =>
      have order := Store.pairwise_snapshot told.distinct given
      have order' := Store.pairwise_snapshot told'.distinct given'
      have members : ∀ e, e ∈ shown' ↔ e ∈ shown := by
        intro e
        have listed : e.series ∈ t.listed e.kind ↔ e.series ∈ s.listed e.kind :=
          (told'.listed e.slot).trans (told.listed e.slot).symm
        rw [Store.mem_snapshot told'.distinct given', Store.mem_snapshot told.distinct given,
          alike, listed]
      have perm := (List.perm_ext_iff_of_nodup (nodup_slots order').of_map
        (nodup_slots order).of_map).mpr members
      -- Two lists of the same members, both in an order without ties.
      rw [perm.eq_of_pairwise (fun a b _ _ before after => absurd after before.asymm) order' order]

/-- A snapshot of a store that was reached by accesses does not show in what order its tables stand.
There is none only if one of its histograms has no summary, where more than twenty values were observed
and one of them is no number. It shows each series of each kind that was ever updated, once, with what
is read of it, a histogram with its median. It is in the order of names and then labels, each of these
by its name and then its value; of one series the counter comes first, then the gauge, then the
histogram. Where all values are numbers it does not show in what order the tables ever stood. -/
theorem snapshot_canonical (accesses : List Access) (s : Store) (reached : Reached accesses s) :
    (∀ t, s.Rearranged t → t.snapshot? = s.snapshot?) ∧
    (s.snapshot? = none ↔ ∃ k, s.summary? k = none) ∧
    (∀ k, s.summary? k = none → 20 < ((log accesses).filterMap (·.observed k)).length ∧
      ∃ x ∈ (log accesses).filterMap (·.observed k), x.isNaN = true) ∧
    (∀ entries, s.snapshot? = some entries →
      (entries.map Entry.slot).Nodup ∧
      (∀ slot, slot ∈ entries.map Entry.slot ↔ slot ∈ (log accesses).map Update.slot) ∧
      (∀ e ∈ entries, (s.read? e.slot).map Reading.value = some e.value) ∧
      entries.Pairwise Entry.Before) ∧
    ((∀ k, Numbers ((log accesses).filterMap (·.observed k))) →
      ∃ entries, ∀ t, Reached accesses t → t.snapshot? = some entries) := by
  have told := reached.told
  refine ⟨fun t same => ?_, Store.snapshot?_eq_none (told.distinct .histogram),
    fun k => told.strange_of_none, fun entries given => ?_, fun numbers => ?_⟩
  · apply snapshot?_of_told told (told.rearranged same)
    intro slot
    rw [Store.read?_eq_reading?, same.held told.distinct, Store.read?_eq_reading?]
  · have order := Store.pairwise_snapshot told.distinct given
    refine ⟨nodup_slots order, fun slot => ?_,
      fun e mem => ((Store.mem_snapshot told.distinct given).mp mem).2, order⟩
    exact (Store.mem_slots_snapshot told.distinct given).trans (told.listed slot)
  · cases given : s.snapshot? with
    | none =>
      obtain ⟨k, breaks⟩ := (Store.snapshot?_eq_none (told.distinct .histogram)).mp given
      rw [told.summary?_of_numbers (numbers k)] at breaks
      cases breaks
    | some entries =>
      refine ⟨entries, fun t reached' => ?_⟩
      rw [← given]
      exact snapshot?_of_told told reached'.told fun slot =>
        told.read?_eq reached'.told rfl fun _ => numbers slot.series

/-- Two counters, of which the second comes first in a snapshot, and a histogram of one name with it. -/
def crossed : List Access :=
  [.increment "sent" [] 2, .increment "lost" [] 1, .observe "lost" [] 7.0]

theorem snapshot_canonical_crossed :
    ∃ s t entries, Reached crossed s ∧ s.Rearranged t ∧
      s.counters.map (·.1.name) = ["sent", "lost"] ∧
      t.counters.map (·.1.name) = ["lost", "sent"] ∧
      s.snapshot? = some entries ∧ t.snapshot? = some entries ∧
      ⟨.histogram, .of "lost" []⟩ ∈ entries.map Entry.slot := by
  have reached : Reached crossed
      (((Store.empty.apply (.increment (.of "sent" []) 2)).apply
        (.increment (.of "lost" []) 1)).apply (.observe (.of "lost" []) 7.0)) :=
    ((Reached.empty.step (a := .increment "sent" [] 2) (.answered rfl)).step
      (a := .increment "lost" [] 1) (.answered rfl)).step (a := .observe "lost" [] 7.0)
        (.answered rfl)
  generalize same : Store.apply _ _ = s at reached
  have turned : s.Rearranged ⟨s.counters.reverse, s.gauges, s.histograms⟩ :=
    ⟨(List.reverse_perm _).symm, .refl _, .refl _⟩
  have counted : s.counters.map (·.1.name) = ["sent", "lost"] := by
    rw [← same]
    simp [Store.apply, Store.empty, Table.update, Table.orInsert, Table.modify, Series.of,
      lookup_row]
  have values (k : Series) : Numbers ((log crossed).filterMap (·.observed k)) := by
    intro x mem
    simp only [crossed, log, Access.update?, List.filterMap_cons, List.filterMap_nil,
      Update.observed] at mem
    by_cases lost : k = .of "lost" []
    · rw [if_pos lost] at mem
      rw [List.mem_singleton.mp mem]
      rfl
    · rw [if_neg lost] at mem
      cases mem
  obtain ⟨canonical, -, -, shows, numbers⟩ := snapshot_canonical crossed s reached
  obtain ⟨entries, given⟩ := numbers values
  refine ⟨s, _, entries, reached, turned, counted, ?_, given s reached, ?_, ?_⟩
  · rw [List.map_reverse, counted]
    rfl
  · rw [canonical _ turned]
    exact given s reached
  · apply ((shows entries (given s reached)).2.1 _).mpr
    exact List.mem_of_getLast? rfl

/-- A store of which no snapshot can be taken. -/
theorem no_snapshot_of_contradiction :
    ∃ s, Reached (contradiction.map (.observe "wait" [])) s ∧ s.snapshot? = none := by
  obtain ⟨s, reached, stands⟩ := exists_observed "wait" [] contradiction
  refine ⟨s, reached, (Store.snapshot?_eq_none (reached.told.distinct .histogram)).mpr ?_⟩
  refine ⟨.of "wait" [], ?_⟩
  rw [Store.summary?, stands, ascending?_contradiction]
  rfl

end SessionCourier.Metrics
