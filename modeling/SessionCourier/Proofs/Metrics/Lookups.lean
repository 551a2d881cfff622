import Mathlib.Data.List.Forall2
import Mathlib.Data.UInt
import SessionCourier.Proofs.Metrics.Ascending

set_option autoImplicit false

namespace SessionCourier.Metrics

theorem lookup_row {α : Type} (here k : Series) (a : α) (rest : Table α) :
    List.lookup k ((here, a) :: rest) = if k = here then some a else rest.lookup k := by
  rw [List.lookup_cons]
  by_cases same : k = here
  · rw [if_pos same, same, beq_self_eq_true]
  · rw [if_neg same, beq_false_of_ne same]

namespace Table

variable {α : Type} {t t' : Table α} {key key' k : Series} {new new' : α} {f f' : α → α}

theorem lookup_eq_none : t.lookup k = none ↔ k ∉ t.map Prod.fst := by
  rw [List.lookup_eq_none_iff, List.mem_map]
  constructor
  · rintro absent ⟨row, mem, rfl⟩
    exact absurd (absent row mem) (by simp)
  · intro absent row mem
    rw [bne_iff_ne]
    rintro rfl
    exact absent ⟨row, mem, rfl⟩

theorem lookup_modify (t : Table α) (key k : Series) (f : α → α) :
    (t.modify key f).lookup k = if k = key then (t.lookup key).map f else t.lookup k := by
  induction t with
  | nil => exact (ite_self none).symm
  | cons row rest ih =>
    obtain ⟨here, a⟩ := row
    rw [modify, List.map_cons, ← modify, lookup_row, lookup_row, lookup_row, ih]
    by_cases found : here = key
    · subst found
      rw [if_pos rfl, if_pos rfl]
      split <;> rfl
    · rw [if_neg found, if_neg (Ne.symm found)]
      by_cases same : k = here
      · rw [if_pos same, if_pos same, if_neg (same ▸ found)]
      · rw [if_neg same, if_neg same]

theorem keys_modify (t : Table α) (key : Series) (f : α → α) :
    (t.modify key f).map Prod.fst = t.map Prod.fst := List.map_map

theorem modify_comm (t : Table α) (apart : key ≠ key') :
    (t.modify key f).modify key' f' = (t.modify key' f').modify key f := by
  rw [modify, modify, modify, modify, List.map_map, List.map_map]
  apply List.map_congr_left
  intro row _
  dsimp only [Function.comp]
  by_cases here : row.1 = key
  · have there : row.1 ≠ key' := fun there => apart (here.symm.trans there)
    rw [if_neg there, if_pos here, if_pos here, if_neg there]
  · rw [if_neg here, if_neg here]

theorem orInsert_of_mem (mem : key ∈ t.map Prod.fst) : t.orInsert key new = t := by
  unfold orInsert
  split
  · rfl
  · exact absurd mem (lookup_eq_none.mp ‹_›)

theorem orInsert_of_not_mem (absent : key ∉ t.map Prod.fst) :
    t.orInsert key new = t ++ [(key, new)] := by
  rw [orInsert, lookup_eq_none.mpr absent]

theorem lookup_orInsert (t : Table α) (key k : Series) (new : α) :
    (t.orInsert key new).lookup k =
      if k = key then some ((t.lookup key).getD new) else t.lookup k := by
  unfold orInsert
  split
  · rename_i a found
    split
    · rename_i same
      rw [same, found]
      rfl
    · rfl
  · rename_i absent
    rw [List.lookup_append, lookup_row]
    split
    · rename_i same
      rw [same, absent]
      rfl
    · exact Option.or_none

theorem mem_keys_orInsert :
    k ∈ (t.orInsert key new).map Prod.fst ↔ k ∈ t.map Prod.fst ∨ k = key := by
  by_cases mem : key ∈ t.map Prod.fst
  · rw [orInsert_of_mem mem]
    exact ⟨Or.inl, fun known => known.elim id fun same => same ▸ mem⟩
  · rw [orInsert_of_not_mem mem, List.map_append, List.mem_append, List.map_singleton,
      List.mem_singleton]

theorem orInsert_perm (perm : t.Perm t') (key : Series) (new : α) :
    (t.orInsert key new).Perm (t'.orInsert key new) := by
  have keys := (perm.map Prod.fst).mem_iff (a := key)
  by_cases mem : key ∈ t.map Prod.fst
  · rwa [orInsert_of_mem mem, orInsert_of_mem (keys.mp mem)]
  · rw [orInsert_of_not_mem mem, orInsert_of_not_mem (mt keys.mpr mem)]
    exact perm.append_right _

theorem orInsert_comm (t : Table α) (apart : key ≠ key') :
    ((t.orInsert key new).orInsert key' new').Perm ((t.orInsert key' new').orInsert key new) := by
  by_cases mem : key ∈ t.map Prod.fst
  · rw [orInsert_of_mem mem, orInsert_of_mem (mem_keys_orInsert.mpr (.inl mem))]
  by_cases mem' : key' ∈ t.map Prod.fst
  · rw [orInsert_of_mem mem', orInsert_of_mem (mem_keys_orInsert.mpr (.inl mem'))]
  have still : key ∉ (t.orInsert key' new').map Prod.fst := fun known =>
    (mem_keys_orInsert.mp known).elim mem apart
  have still' : key' ∉ (t.orInsert key new).map Prod.fst := fun known =>
    (mem_keys_orInsert.mp known).elim mem' apart.symm
  rw [orInsert_of_not_mem still, orInsert_of_not_mem still', orInsert_of_not_mem mem,
    orInsert_of_not_mem mem', List.append_assoc, List.append_assoc]
  exact (List.Perm.swap _ _ _).append_left t

theorem orInsert_modify (t : Table α) (apart : key ≠ key') :
    (t.modify key f).orInsert key' new' = (t.orInsert key' new').modify key f := by
  by_cases mem' : key' ∈ t.map Prod.fst
  · rw [orInsert_of_mem mem', orInsert_of_mem (by rwa [keys_modify])]
  · rw [orInsert_of_not_mem mem', orInsert_of_not_mem (by rwa [keys_modify]), modify, modify,
      List.map_append, List.map_singleton, if_neg apart.symm]

/-- Whether a value was there when it was first looked for makes no difference. -/
theorem update_eq (t : Table α) (key : Series) (new : α) (f : α → α) :
    t.update key new f = (t.orInsert key new).modify key f := by
  unfold update
  split
  · rw [orInsert, ‹t.lookup key = some _›]
  · rfl

theorem lookup_update (t : Table α) (key k : Series) (new : α) (f : α → α) :
    (t.update key new f).lookup k =
      if k = key then some (f ((t.lookup key).getD new)) else t.lookup k := by
  rw [update_eq, lookup_modify, lookup_orInsert, if_pos rfl, lookup_orInsert]
  split <;> rfl

theorem keys_update_perm (t : Table α) (key : Series) (new : α) (f : α → α) :
    ((t.update key new f).map Prod.fst).Perm ((t.map Prod.fst).insert key) := by
  rw [update_eq, keys_modify]
  by_cases mem : key ∈ t.map Prod.fst
  · rw [orInsert_of_mem mem, List.insert_of_mem mem]
  · rw [orInsert_of_not_mem mem, List.insert_of_not_mem mem, List.map_append]
    exact List.perm_append_singleton _ _

theorem update_perm (perm : t.Perm t') (key : Series) (new : α) (f : α → α) :
    (t.update key new f).Perm (t'.update key new f) := by
  rw [update_eq, update_eq]
  exact (orInsert_perm perm key new).map _

theorem update_comm (t : Table α) (apart : key ≠ key') :
    ((t.update key new f).update key' new' f').Perm ((t.update key' new' f').update key new f) := by
  rw [update_eq _ key', update_eq _ key, update_eq _ key, update_eq _ key', orInsert_modify _ apart,
    orInsert_modify _ apart.symm, modify_comm _ apart]
  exact ((orInsert_comm t apart).map _).map _

end Table

namespace Update

def added (k : Series) : Update → Option UInt64
  | .increment key n => if k = key then some n else none
  | _ => none

def assigned (k : Series) : Update → Option UInt64
  | .set key bits => if k = key then some bits else none
  | _ => none

def observed (k : Series) : Update → Option Float
  | .observe key value => if k = key then some value else none
  | _ => none

end Update

namespace Store

variable (s : Store) (k : Series)

theorem counter_apply (u : Update) :
    (s.apply u).counter k = s.counter k + (u.added k).getD 0 := by
  cases u with
  | increment key n =>
    rw [Update.added, apply, counter, Table.lookup_update]
    by_cases same : k = key
    · subst same
      rw [if_pos rfl, if_pos rfl]
      rfl
    · rw [if_neg same, if_neg same]
      exact (UInt64.add_zero _).symm
  | set key bits => exact (UInt64.add_zero _).symm
  | observe key value => exact (UInt64.add_zero _).symm

theorem gauge_apply (u : Update) :
    (s.apply u).gauge k = (u.assigned k).getD (s.gauge k) := by
  cases u with
  | set key bits =>
    rw [Update.assigned, apply, gauge, Table.lookup_update]
    split <;> rfl
  | increment key n => rfl
  | observe key value => rfl

theorem observations_apply (u : Update) :
    (s.apply u).observations k = s.observations k ++ (u.observed k).toList := by
  cases u with
  | observe key value =>
    rw [Update.observed, apply, observations, Table.lookup_update]
    by_cases same : k = key
    · subst same
      rw [if_pos rfl, if_pos rfl]
      rfl
    · rw [if_neg same, if_neg same]
      exact (List.append_nil _).symm
  | increment key n => exact (List.append_nil _).symm
  | set key bits => exact (List.append_nil _).symm

theorem counter_applyAll (updates : List Update) :
    (s.applyAll updates).counter k = s.counter k + (updates.filterMap (·.added k)).sum := by
  induction updates generalizing s with
  | nil => exact (UInt64.add_zero _).symm
  | cons u us ih =>
    have step : s.applyAll (u :: us) = (s.apply u).applyAll us := rfl
    rw [step, ih, counter_apply, List.filterMap_cons, UInt64.add_assoc]
    cases u.added k with
    | none => exact congrArg _ (UInt64.zero_add _)
    | some n => rfl

/-- Rows of histograms after a read, be it that the read broke off. -/
abbrev DisturbedRows (rows after : Table (List Float)) : Prop :=
  List.Forall₂ (fun row row' => row'.1 = row.1 ∧ Metrics.Disturbed row.2 row'.2) rows after

/-- A store after a read. -/
structure Disturbed (s t : Store) : Prop where
  counters : t.counters = s.counters
  gauges : t.gauges = s.gauges
  rows : DisturbedRows s.histograms t.histograms

variable {s k} {t : Store} {chosen : Series → Bool} {rows after : Table (List Float)}

theorem Disturbed.refl (s : Store) : s.Disturbed s :=
  ⟨rfl, rfl, List.forall₂_same.mpr fun _ _ => ⟨rfl, .untouched⟩⟩

theorem DisturbedRows.lookup (disturbed : DisturbedRows rows after) (k : Series) :
    Metrics.Disturbed ((rows.lookup k).getD []) ((after.lookup k).getD []) := by
  induction disturbed with
  | nil => exact .untouched
  | @cons row row' _ _ same _ ih =>
    obtain ⟨here, values⟩ := row
    obtain ⟨_, values'⟩ := row'
    obtain ⟨rfl, disturbed⟩ := same
    rw [lookup_row, lookup_row]
    split
    · exact disturbed
    · exact ih

theorem DisturbedRows.keys (disturbed : DisturbedRows rows after) :
    after.map Prod.fst = rows.map Prod.fst := by
  induction disturbed with
  | nil => rfl
  | cons same _ ih => rw [List.map_cons, List.map_cons, same.1, ih]

theorem sortRows?_disturbed (sorts : sortRows? chosen rows = some after) :
    DisturbedRows rows after := by
  induction rows generalizing after with
  | nil =>
    cases sorts
    exact .nil
  | cons row rest ih =>
    obtain ⟨row', here, sorts⟩ := Option.bind_eq_some_iff.mp sorts
    obtain ⟨rest', there, sorts⟩ := Option.bind_eq_some_iff.mp sorts
    cases sorts
    apply List.Forall₂.cons _ (ih there)
    unfold sortRow? at here
    split at here
    · obtain ⟨sorted, ascends, rfl⟩ := Option.map_eq_some_iff.mp here
      exact ⟨rfl, .sorted ascends⟩
    · cases here
      exact ⟨rfl, .untouched⟩

theorem disturbed_of_summarised (read : s.summarised? chosen = some t) : s.Disturbed t := by
  obtain ⟨rows, sorts, rfl⟩ := Option.map_eq_some_iff.mp read
  exact ⟨rfl, rfl, sortRows?_disturbed sorts⟩

end Store

end SessionCourier.Metrics
