import Mathlib.Data.List.Perm.Basic
import SessionCourier.Sorting.Stable

set_option autoImplicit false

namespace SessionCourier.Sorting

variable {α : Type} {less : Less α}

theorem insertBack_perm (x : α) (items : List α) : (insertBack less x items).Perm (x :: items) := by
  induction items with
  | nil => exact .refl _
  | cons y ys ih =>
    rw [insertBack]
    split
    · exact (ih.cons y).trans (.swap x y ys)
    · exact .refl _

theorem insertAll_perm (sorted items : List α) :
    (insertAll less sorted items).Perm (sorted ++ items) := by
  have inserted : ∀ back : List α,
      (items.foldl (fun back x => insertBack less x back) back).Perm (items ++ back) := by
    induction items with
    | nil => exact fun back => .refl _
    | cons x xs ih =>
      intro back
      have step := (ih (insertBack less x back)).trans ((insertBack_perm x back).append_left xs)
      exact step.trans List.perm_middle
  rw [insertAll]
  exact ((List.reverse_perm _).trans (inserted sorted.reverse)).trans
    (((List.reverse_perm sorted).append_left items).trans List.perm_append_comm)

theorem mergeRuns_perm (left right : List α) : (mergeRuns less left right).Perm (left ++ right) := by
  rw [mergeRuns]
  split
  · exact List.merge_perm_append _
  · refine ((List.reverse_perm _).trans (List.merge_perm_append _)).trans ?_
    exact ((List.reverse_perm right).append (List.reverse_perm left)).trans List.perm_append_comm

/-- So many steps of a merge take a beginning of each run, as long as both runs last. -/
theorem Steps.take_perm (takesRight : α → α → Bool) (n : Nat) (left right : List α)
    (lasts_left : n ≤ left.length) (lasts_right : n ≤ right.length) :
    ∃ i j, i + j = n ∧ (Steps.take takesRight n left right).left = left.drop i ∧
      (Steps.take takesRight n left right).right = right.drop j ∧
      (Steps.take takesRight n left right).taken.Perm (left.take i ++ right.take j) := by
  induction n generalizing left right with
  | zero => exact ⟨0, 0, rfl, by simp [Steps.take], by simp [Steps.take], by simp [Steps.take]⟩
  | succ n ih =>
    cases left with
    | nil => exact absurd lasts_left (Nat.not_succ_le_zero n)
    | cons l ls =>
      cases right with
      | nil => exact absurd lasts_right (Nat.not_succ_le_zero n)
      | cons r rs =>
        simp only [List.length_cons] at lasts_left lasts_right
        rw [Steps.take]
        split
        · obtain ⟨i, j, sum, rest, rest', taken⟩ :=
            ih (l :: ls) rs (by rw [List.length_cons]; omega) (by omega)
          refine ⟨i, j + 1, by omega, rest, by rw [List.drop_succ_cons]; exact rest', ?_⟩
          rw [List.take_succ_cons]
          exact (taken.cons r).trans List.perm_middle.symm
        · obtain ⟨i, j, sum, rest, rest', taken⟩ :=
            ih ls (r :: rs) (by omega) (by rw [List.length_cons]; omega)
          refine ⟨i + 1, j, by omega, by rw [List.drop_succ_cons]; exact rest, rest', ?_⟩
          rw [List.take_succ_cons]
          exact taken.cons l

theorem take_middle_drop (items : List α) (i n : Nat) :
    items.take i ++ (items.drop i).take n ++ items.drop (i + n) = items := by
  rw [List.append_assoc, ← List.drop_drop, List.take_append_drop, List.take_append_drop]

theorem ends_perm (run taken back : List α) (i k n : Nat) (all : i + n + k = run.length)
    (front : taken.Perm (run.take i)) (last : back.Perm (run.reverse.take k)) :
    (taken ++ (run.drop i).take n ++ back).Perm run := by
  have tail : back.Perm (run.drop (i + n)) := by
    refine last.trans ?_
    rw [List.take_reverse]
    have : run.length - k = i + n := by omega
    rw [this]
    exact List.reverse_perm _
  have whole := (front.append_right ((run.drop i).take n)).append tail
  rwa [take_middle_drop] at whole

theorem mergeHalves?_perm {items merged : List α} (ok : mergeHalves? less items = some merged) :
    merged.Perm items := by
  unfold mergeHalves? at ok
  set half := items.length / 2 with half_eq
  have length_left : (items.take half).length = half := by rw [List.length_take]; omega
  have length_right : (items.drop half).length = half + items.length % 2 := by
    rw [List.length_drop]; omega
  obtain ⟨i, j, sum, left, right, taken⟩ :=
    Steps.take_perm (fun l r => less r l) half (items.take half) (items.drop half)
      (by omega) (by omega)
  obtain ⟨i', j', sum', left', -, taken'⟩ :=
    Steps.take_perm (fun l r => !less r l) half (items.take half).reverse (items.drop half).reverse
      (by rw [List.length_reverse]; omega) (by rw [List.length_reverse]; omega)
  simp only [left, left', right, List.length_drop, List.length_reverse, length_left] at ok
  -- Both ends together take a beginning and an end of each half.
  have gathered : ∀ n m : Nat, i + n + i' = half → j + m + j' = half + items.length % 2 →
      ((Steps.take (fun l r => less r l) half (items.take half) (items.drop half)).taken ++
        (((items.take half).drop i).take n ++ ((items.drop half).drop j).take m) ++
        (Steps.take (fun l r => !less r l) half (items.take half).reverse
          (items.drop half).reverse).taken.reverse).Perm items := by
    intro n m whole whole'
    have lefts := ends_perm (items.take half) _ _ i i' n (by omega) (.refl _) (.refl _)
    have rights := ends_perm (items.drop half) _ _ j j' m (by omega) (.refl _) (.refl _)
    have both := lefts.append rights
    rw [List.take_append_drop] at both
    refine .trans ?_ both
    refine ((taken.append_right _).append ((List.reverse_perm _).trans taken')).trans ?_
    classical
    rw [List.perm_iff_count]
    intro x
    simp only [List.count_append]
    omega
  split at ok
  · cases ok
    have := gathered 0 (items.length % 2) (by omega) (by omega)
    simpa using this
  · split at ok
    · cases ok
      have := gathered (items.length % 2) 0 (by omega) (by omega)
      simpa using this
    · cases ok

namespace Few

theorem pair_perm (test : Bool) (x y : α) :
    [(if test then (x, y) else (y, x)).1, (if test then (x, y) else (y, x)).2].Perm [x, y] := by
  cases test
  · exact .swap x y []
  · exact .refl _

theorem sortFour_perm (v w x y : α) : (sortFour less v w x y).Perm [v, w, x, y] := by
  have outer : ∀ (a b c d : α) (s t u : Bool),
      (if u then [if s then c else a, if t then d else if s then b else c,
          if s then a else if t then c else b, if t then b else d]
        else [if s then c else a, if s then a else if t then c else b,
          if t then d else if s then b else c, if t then b else d]).Perm [a, b, c, d] := by
    intro a b c d s t u
    classical
    rw [List.perm_iff_count]
    intro z
    cases s <;> cases t <;> cases u <;> simp only [List.count_cons, Bool.false_eq_true, ite_false, ite_true] <;> omega
  rw [sortFour]
  refine (outer _ _ _ _ _ _ _).trans ?_
  exact ((pair_perm (less w v) w v).trans (.swap v w [])).append
    ((pair_perm (less y x) y x).trans (.swap x y []))

theorem sortQuad_perm (items : List α) : (sortQuad less items).Perm items := by
  unfold sortQuad
  split
  · exact sortFour_perm _ _ _ _
  · exact .refl _

theorem sortStart?_perm {count : Nat} {half : List α} {start : Nat × List α}
    (ok : sortStart? less count half = some start) : start.2.Perm (half.take start.1) := by
  unfold sortStart? at ok
  split at ok
  · obtain ⟨merged, merges, rfl⟩ := Option.map_eq_some_iff.mp ok
    refine (mergeHalves?_perm merges).trans ?_
    have split : half.take (4 + 4) = half.take 4 ++ (half.drop 4).take 4 := List.take_add
    exact split ▸ (sortQuad_perm _).append (sortQuad_perm _)
  · split at ok
    · cases ok
      exact sortQuad_perm _
    · cases ok
      exact .refl _

theorem sortHalf?_perm {count : Nat} {half sorted : List α}
    (ok : sortHalf? less count half = some sorted) : sorted.Perm half := by
  obtain ⟨start, starts, rfl⟩ := Option.map_eq_some_iff.mp ok
  have inserted : (insertAll less start.2 (half.drop start.1)).Perm
      (start.2 ++ half.drop start.1) :=
    insertAll_perm _ _
  have all := inserted.trans ((sortStart?_perm starts).append_right _)
  rwa [List.take_append_drop] at all

theorem sort?_perm {items sorted : List α} (ok : sort? less items = some sorted) :
    sorted.Perm items := by
  unfold sort? at ok
  simp only at ok
  split at ok
  · cases ok
    exact .refl _
  · obtain ⟨left, sorts, ok⟩ := Option.bind_eq_some_iff.mp ok
    obtain ⟨right, sorts', merges⟩ := Option.bind_eq_some_iff.mp ok
    have := (mergeHalves?_perm merges).trans ((sortHalf?_perm sorts).append (sortHalf?_perm sorts'))
    rwa [List.take_append_drop] at this

end Few

namespace Run

def Plan.Rearranges (plan : Plan α) : Prop :=
  ∀ items sorted, plan.sortLater items = some sorted → sorted.Perm items

def itemsOf (runs : List (Run α)) : List α := runs.flatMap (·.items)

theorem chain_eq_take (test : α → α → Bool) (x : α) (items : List α) :
    items.take (chain test x items).length = chain test x items := by
  induction items generalizing x with
  | nil => rfl
  | cons y ys ih =>
    rw [chain]
    split
    · rw [List.length_cons, List.take_succ_cons, ih]
    · rfl

theorem first_perm (items : List α) :
    (first less items).Perm (items.take (first less items).length) := by
  unfold first
  split
  · split
    · refine (List.reverse_perm _).trans ?_
      rw [List.length_reverse, List.length_cons, List.length_cons, List.take_succ_cons,
        List.take_succ_cons, chain_eq_take]
    · rw [List.length_cons, List.length_cons, List.take_succ_cons, List.take_succ_cons,
        chain_eq_take]
  · rw [List.take_length]

theorem next?_perm {plan : Plan α} {good : Nat} {items : List α} {run : Run α}
    (ok : next? plan good items = some run) :
    run.items.Perm (items.take run.items.length) := by
  unfold next? at ok
  simp only at ok
  split at ok
  · cases ok
    exact first_perm items
  · split at ok
    · obtain ⟨sorted, sorts, rfl⟩ := Option.map_eq_some_iff.mp ok
      have perm := Few.sort?_perm sorts
      have same : items.take sorted.length = items.take Few.most := by
        rw [perm.length_eq, List.length_take]
        exact (List.take_eq_take_min).symm
      exact same ▸ perm
    · cases ok
      show (items.take good).Perm _
      rw [List.length_take, ← List.take_eq_take_min]

theorem first_pos (x : α) (xs : List α) : 0 < (first less (x :: xs)).length := by
  unfold first
  split
  · split <;> simp
  · rename_i items _
    exact List.length_pos_iff.mpr (by simp)

theorem next?_pos {plan : Plan α} {good : Nat} {x : α} {xs : List α} {run : Run α}
    (ok : next? plan good (x :: xs) = some run) : 0 < run.items.length := by
  have found : 0 < (first plan.less (x :: xs)).length := first_pos x xs
  unfold next? at ok
  simp only at ok
  split at ok
  · cases ok
    exact found
  · rename_i short
    split at ok
    · obtain ⟨sorted, sorts, rfl⟩ := Option.map_eq_some_iff.mp ok
      rw [(Few.sort?_perm sorts).length_eq, List.length_take, List.length_cons, Few.most]
      omega
    · cases ok
      rw [List.length_take, List.length_cons]
      omega

theorem cut?_perm {plan : Plan α} {good : Nat} {items : List α} {runs : List (Run α)}
    (ok : cut? plan good items = some runs) : (itemsOf runs).Perm items := by
  induction length : items.length using Nat.strongRecOn generalizing items runs with
  | _ n ih =>
    subst length
    cases items with
    | nil =>
      rw [cut?] at ok
      cases ok
      exact .refl _
    | cons x xs =>
      rw [cut?] at ok
      obtain ⟨run, next, ok⟩ := Option.bind_eq_some_iff.mp ok
      obtain ⟨more, cuts, ok⟩ := Option.bind_eq_some_iff.mp ok
      cases ok
      have pos := next?_pos next
      have rest : xs.drop (run.items.length - 1) = (x :: xs).drop run.items.length := by
        rw [← List.drop_succ_cons, Nat.sub_add_cancel pos]
      have shorter : (xs.drop (run.items.length - 1)).length < (x :: xs).length := by
        rw [List.length_drop, List.length_cons]
        omega
      have both := (next?_perm next).append (ih _ shorter cuts rfl)
      rwa [rest, List.take_append_drop] at both

theorem settle?_perm {plan : Plan α} (keeps : plan.Rearranges) {run : Run α} {items : List α}
    (ok : settle? plan run = some items) : items.Perm run.items := by
  unfold settle? at ok
  split at ok
  · cases ok
    exact .refl _
  · exact keeps _ _ ok

theorem join?_perm {plan : Plan α} (keeps : plan.Rearranges) {left right joined : Run α}
    (ok : join? plan left right = some joined) :
    joined.items.Perm (left.items ++ right.items) := by
  unfold join? at ok
  split at ok
  · obtain ⟨l, settles, ok⟩ := Option.bind_eq_some_iff.mp ok
    obtain ⟨r, settles', ok⟩ := Option.bind_eq_some_iff.mp ok
    cases ok
    exact (mergeRuns_perm l r).trans ((settle?_perm keeps settles).append
      (settle?_perm keeps settles'))
  · cases ok
    exact .refl _

def stacked (stack : List (Run α × Nat)) : List α := stack.flatMap (·.1.items)

theorem stacked_cons (top : Run α × Nat) (stack : List (Run α × Nat)) :
    stacked (top :: stack) = top.1.items ++ stacked stack := List.flatMap_cons

theorem collapse?_perm {plan : Plan α} (keeps : plan.Rearranges) {limit : Nat} {run : Run α}
    {stack : List (Run α × Nat)} {result : Run α × List (Run α × Nat)}
    (ok : collapse? plan limit run stack = some result) :
    (result.1.items ++ stacked result.2).Perm (run.items ++ stacked stack) := by
  induction stack generalizing run with
  | nil =>
    rw [collapse?] at ok
    cases ok
    exact .refl _
  | cons top stack ih =>
    rw [collapse?] at ok
    split at ok
    · obtain ⟨joined, joins, ok⟩ := Option.bind_eq_some_iff.mp ok
      refine (ih ok).trans ?_
      refine ((join?_perm keeps joins).append_right _).trans ?_
      rw [stacked_cons, ← List.append_assoc]
      exact List.perm_append_comm.append_right _
    · cases ok
      exact .refl _

theorem collapse?_zero {plan : Plan α} {run : Run α} {stack : List (Run α × Nat)}
    {result : Run α × List (Run α × Nat)} (ok : collapse? plan 0 run stack = some result) :
    result.2 = [] := by
  induction stack generalizing run with
  | nil =>
    rw [collapse?] at ok
    cases ok
    rfl
  | cons top stack ih =>
    rw [collapse?, if_pos (Nat.zero_le _)] at ok
    obtain ⟨joined, -, ok⟩ := Option.bind_eq_some_iff.mp ok
    exact ih ok

theorem joinAll?_perm {plan : Plan α} (keeps : plan.Rearranges) {count read : Nat} {run : Run α}
    {stack : List (Run α × Nat)} {later : List (Run α)} {joined : Run α}
    (ok : joinAll? plan count read run stack later = some joined) :
    joined.items.Perm (run.items ++ stacked stack ++ itemsOf later) := by
  induction later generalizing read run stack with
  | nil =>
    rw [joinAll?] at ok
    obtain ⟨result, collapses, rfl⟩ := Option.map_eq_some_iff.mp ok
    have perm := collapse?_perm keeps collapses
    rw [collapse?_zero collapses] at perm
    simpa [stacked, itemsOf] using perm
  | cons next later ih =>
    rw [joinAll?] at ok
    obtain ⟨result, collapses, ok⟩ := Option.bind_eq_some_iff.mp ok
    refine (ih ok).trans ?_
    rw [stacked_cons]
    have perm := (collapse?_perm keeps collapses).append_left next.items
    refine (perm.append_right (itemsOf later)).trans ?_
    have later_items : itemsOf (next :: later) = next.items ++ itemsOf later := List.flatMap_cons
    rw [later_items, ← List.append_assoc (run.items ++ stacked stack)]
    exact List.perm_append_comm.append_right _

theorem sort?_perm {plan : Plan α} (keeps : plan.Rearranges) {items sorted : List α}
    (ok : sort? plan items = some sorted) : sorted.Perm items := by
  obtain ⟨runs, cuts, ok⟩ := Option.bind_eq_some_iff.mp ok
  have perm := cut?_perm cuts
  cases runs with
  | nil =>
    cases ok
    exact perm
  | cons run later =>
    obtain ⟨joined, joins, settles⟩ := Option.bind_eq_some_iff.mp ok
    have := (settle?_perm keeps settles).trans (joinAll?_perm keeps joins)
    simpa [stacked, itemsOf] using this.trans (.trans (by simp [stacked, itemsOf]) perm)

end Run

theorem divide_perm (test : α → Bool) (place : Nat) (placeLeft : Bool) (items : List α) :
    ((divide test place placeLeft items).1 ++ (divide test place placeLeft items).2).Perm items := by
  have parted := List.filter_append_perm
    (fun x : α × Nat => if x.2 = place then placeLeft else test x.1) items.zipIdx
  have items_of := parted.map (·.1)
  rw [List.map_append, List.zipIdx_map_fst] at items_of
  rw [divide, List.partition_eq_filter_filter]
  exact items_of

theorem partitionSort?_perm {limit : Nat} {floor : Option α} {items sorted : List α}
    (ok : partitionSort? less limit floor items = some sorted) : sorted.Perm items := by
  induction limit generalizing floor items sorted with
  | zero =>
    rw [partitionSort?] at ok
    split at ok
    · exact Few.sort?_perm ok
    · refine Run.sort?_perm (fun items sorted same => ?_) ok
      cases same
      exact .refl _
  | succ limit ih =>
    rw [partitionSort?] at ok
    split at ok
    · exact Few.sort?_perm ok
    · obtain ⟨pivot, -, ok⟩ := Option.bind_eq_some_iff.mp ok
      dsimp only at ok
      -- A floor only has a say in which way the list is cut.
      cases floor
      all_goals
        dsimp only at ok
        split at ok
        · obtain ⟨rest, sorts, ok⟩ := Option.bind_eq_some_iff.mp ok
          cases ok
          exact ((ih sorts).append_left _).trans (divide_perm _ _ _ items)
        · obtain ⟨right, sorts, ok⟩ := Option.bind_eq_some_iff.mp ok
          obtain ⟨left, sorts', ok⟩ := Option.bind_eq_some_iff.mp ok
          cases ok
          exact ((ih sorts').append (ih sorts)).trans (divide_perm _ _ _ items)

/-- Whatever the comparison, a result of the stable sort holds the items that were given. -/
theorem stable?_perm {items sorted : List α} (ok : stable? less items = some sorted) :
    sorted.Perm items := by
  unfold stable? at ok
  split at ok
  · cases ok
    exact insertAll_perm [] items
  · exact Run.sort?_perm (fun _ _ later => partitionSort?_perm later) ok

/-- A list of few items without a long run at its beginning is sorted in two halves, and where their
merge finds that the comparison contradicts itself, there is no result. -/
theorem stable?_eq_none {items : List α} (long : 20 < items.length)
    (few : items.length ≤ Few.most)
    (short : (Run.first less items).length < Run.goodLength items.length)
    (breaks : Few.sort? less items = none) : stable? less items = none := by
  cases items with
  | nil => cases long
  | cons x xs =>
    have eager : (x :: xs).length ≤ 2 * Few.most := by omega
    rw [stable?, if_neg (by omega), Run.sort?, Run.cut?, Run.next?]
    dsimp only
    rw [if_neg (Nat.not_le.mpr short), if_pos (decide_eq_true eager), List.take_of_length_le few,
      breaks]
    rfl

end SessionCourier.Sorting
