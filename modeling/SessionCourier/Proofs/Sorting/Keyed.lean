import Mathlib.Data.List.Sort
import Mathlib.Order.Defs.LinearOrder

set_option autoImplicit false

namespace SessionCourier.Sorting

variable {α β : Type} [LinearOrder β] (key : α → β)

def byKey (a b : α) : Bool := decide (key a ≤ key b)

theorem byKey_trans (a b c : α) (ab : byKey key a b = true) (bc : byKey key b c = true) :
    byKey key a c = true :=
  decide_eq_true ((of_decide_eq_true ab).trans (of_decide_eq_true bc))

theorem byKey_total (a b : α) : (byKey key a b || byKey key b a) = true := by
  simpa [byKey] using le_total (key a) (key b)

def ofKey (k : β) (items : List α) : List α := items.filter fun x => decide (key x = k)

variable {key}

theorem mem_ofKey {k : β} {x : α} {items : List α} :
    x ∈ ofKey key k items ↔ x ∈ items ∧ key x = k := by
  rw [ofKey, List.mem_filter, decide_eq_true_iff]

theorem ofKey_cons (k : β) (x : α) (xs : List α) :
    ofKey key k (x :: xs) = if key x = k then x :: ofKey key k xs else ofKey key k xs := by
  rw [ofKey, List.filter_cons]
  simp only [decide_eq_true_eq, ofKey]

theorem ofKey_ofKey (k : β) (items : List α) :
    ofKey key k (ofKey key k items) = ofKey key k items :=
  List.filter_eq_self.mpr fun _ mem => decide_eq_true (mem_ofKey.mp mem).2

variable (key)

theorem ofKey_mergeSort (k : β) (items : List α) :
    ofKey key k (items.mergeSort (byKey key)) = ofKey key k items := by
  have equal : (ofKey key k items).Pairwise fun a b => byKey key a b = true := by
    refine List.pairwise_of_forall_mem_list fun a ha b hb => ?_
    exact decide_eq_true ((mem_ofKey.mp ha).2.trans (mem_ofKey.mp hb).2.symm).le
  have kept := List.sublist_mergeSort (byKey_trans key) (byKey_total key) equal List.filter_sublist
  have same : (ofKey key k items).Sublist (ofKey key k (items.mergeSort (byKey key))) := by
    have := kept.filter fun x => decide (key x = k)
    exact ofKey_ofKey k items ▸ this
  refine (same.eq_of_length ?_).symm
  exact (((List.mergeSort_perm items (byKey key)).filter _).length_eq).symm

theorem eq_of_ofKey {items others : List α}
    (ascends : items.Pairwise fun a b => key a ≤ key b)
    (ascends' : others.Pairwise fun a b => key a ≤ key b)
    (agree : ∀ k, ofKey key k items = ofKey key k others) : items = others := by
  induction items generalizing others with
  | nil =>
    cases others with
    | nil => rfl
    | cons y ys =>
      have := agree (key y)
      simp [ofKey] at this
  | cons x xs ih =>
    cases others with
    | nil =>
      have := agree (key x)
      simp [ofKey] at this
    | cons y ys =>
      have mem : x ∈ y :: ys :=
        (mem_ofKey.mp (agree (key x) ▸ mem_ofKey.mpr ⟨List.mem_cons_self, rfl⟩)).1
      have mem' : y ∈ x :: xs :=
        (mem_ofKey.mp ((agree (key y)).symm ▸ mem_ofKey.mpr ⟨List.mem_cons_self, rfl⟩)).1
      have least : key x ≤ key y := by
        rcases List.mem_cons.mp mem' with rfl | later
        · exact le_rfl
        · exact List.rel_of_pairwise_cons ascends later
      have least' : key y ≤ key x := by
        rcases List.mem_cons.mp mem with rfl | later
        · exact le_rfl
        · exact List.rel_of_pairwise_cons ascends' later
      have same_key := le_antisymm least least'
      have heads := agree (key x)
      rw [ofKey_cons, ofKey_cons, if_pos rfl, if_pos same_key.symm] at heads
      obtain ⟨rfl, -⟩ := List.cons.inj heads
      congr 1
      refine ih ascends.of_cons ascends'.of_cons fun k => ?_
      have := agree k
      rw [ofKey_cons, ofKey_cons] at this
      split at this
      · exact (List.cons.inj this).2
      · exact this

theorem pairwise_mergeSort (items : List α) :
    (items.mergeSort (byKey key)).Pairwise fun a b => key a ≤ key b :=
  (List.pairwise_mergeSort (byKey_trans key) (byKey_total key) items).imp of_decide_eq_true

/-- To sort what was sorted with more behind it is to sort everything at once. -/
theorem mergeSort_append (items more : List α) :
    (items.mergeSort (byKey key) ++ more).mergeSort (byKey key) =
      (items ++ more).mergeSort (byKey key) := by
  refine eq_of_ofKey key (pairwise_mergeSort key _) (pairwise_mergeSort key _) fun k => ?_
  rw [ofKey_mergeSort, ofKey_mergeSort, ofKey, List.filter_append]
  have := ofKey_mergeSort key k items
  rw [ofKey, ofKey] at this
  rw [this, ofKey, List.filter_append]

theorem pairwise_mergeSort_of_ties {tells : α → α → Prop} {items : List α}
    (ties : items.Pairwise fun a b => key a = key b → tells a b) :
    (items.mergeSort (byKey key)).Pairwise fun a b =>
      key a < key b ∨ key a = key b ∧ tells a b := by
  rw [List.pairwise_iff_forall_sublist]
  intro a b pair
  have le := List.pairwise_iff_forall_sublist.mp (pairwise_mergeSort key items) pair
  refine le.lt_or_eq.imp_right fun same => ⟨same, ?_⟩
  have kept := pair.filter fun x => decide (key x = key b)
  have both : [a, b].filter (fun x => decide (key x = key b)) = [a, b] := by
    simp [same]
  rw [both] at kept
  have there : [a, b].Sublist (ofKey key (key b) items) := ofKey_mergeSort key (key b) items ▸ kept
  exact List.pairwise_iff_forall_sublist.mp ties (there.trans List.filter_sublist) same

end SessionCourier.Sorting
