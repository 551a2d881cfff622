import Mathlib.Data.List.Induction
import Mathlib.Data.String.Basic
import SessionCourier.Proofs.Json.Reading

set_option autoImplicit false

namespace SessionCourier.Json

section Lookup

variable {γ : Type} {name : String} {v : γ} {ms : List (String × γ)}

theorem lookup_member (k : String) (w : γ) (ms : List (String × γ)) (name : String) :
    ((k, w) :: ms).lookup name = if k = name then some w else ms.lookup name := by
  rw [List.lookup_cons]
  by_cases same : k = name
  · simp [same]
  · rw [beq_false_of_ne (Ne.symm same), if_neg same]

theorem lookup_eq_some_iff (nodup : (ms.map (·.1)).Nodup) :
    ms.lookup name = some v ↔ (name, v) ∈ ms := by
  induction ms with
  | nil => exact ⟨nofun, nofun⟩
  | cons m ms ih =>
    obtain ⟨new, later⟩ := List.nodup_cons.1 nodup
    obtain ⟨k, w⟩ := m
    rw [lookup_member, List.mem_cons, Prod.mk.injEq]
    by_cases same : k = name
    · subst same
      have absent : (k, v) ∉ ms := fun mem => new (List.mem_map_of_mem (f := (·.1)) mem)
      simp [absent, eq_comm]
    · rw [if_neg same, ih later]
      simp [Ne.symm same]

end Lookup

namespace Value

variable {key name : String} {v value : Value} {m : String × Value} {ms ns : List (String × Value)}

def keys (ms : List (String × Value)) : List String := ms.map (·.1)

theorem mem_insertMember (mem : m ∈ insertMember key value ms) : m = (key, value) ∨ m ∈ ms := by
  induction ms with
  | nil => exact .inl (List.mem_singleton.1 mem)
  | cons n ms ih =>
    rw [insertMember] at mem
    split_ifs at mem with less same
    · exact List.mem_cons.1 mem
    · exact (List.mem_cons.1 mem).imp_right (List.mem_cons_of_mem n)
    · rcases List.mem_cons.1 mem with rfl | later
      · exact .inr List.mem_cons_self
      · exact (ih later).imp_right (List.mem_cons_of_mem n)

theorem insertMember_perm (absent : key ∉ keys ms) :
    (insertMember key value ms).Perm ((key, value) :: ms) := by
  induction ms with
  | nil => exact .refl _
  | cons n ms ih =>
    obtain ⟨other, later⟩ := not_or.1 (mt List.mem_cons.2 absent)
    rw [insertMember, if_neg other]
    split_ifs
    · exact .refl _
    · exact ((ih later).cons n).trans (.swap (key, value) n ms)

def Ascending (ms : List (String × Value)) : Prop := (keys ms).Pairwise (· < ·)

theorem insertMember_ascending (ascending : Ascending ms) :
    Ascending (insertMember key value ms) := by
  induction ms with
  | nil => exact List.pairwise_singleton _ _
  | cons n ms ih =>
    obtain ⟨first, later⟩ := List.pairwise_cons.1 ascending
    rw [insertMember]
    split_ifs with less same
    · refine List.pairwise_cons.2 ⟨?_, ascending⟩
      intro k mem
      rcases List.mem_cons.1 mem with rfl | mem
      · exact less
      · exact String.lt_trans less (first k mem)
    · exact List.pairwise_cons.2 ⟨same ▸ first, later⟩
    · refine List.pairwise_cons.2 ⟨?_, ih later⟩
      intro k mem
      obtain ⟨m, inserted, rfl⟩ := List.mem_map.1 mem
      rcases mem_insertMember inserted with rfl | old
      · exact lt_of_le_of_ne (not_lt.1 less) (Ne.symm same)
      · exact first m.1 (List.mem_map_of_mem old)

theorem insertMember_greatest (greatest : ∀ k ∈ keys ms, k < key) :
    insertMember key value ms = ms ++ [(key, value)] := by
  induction ms with
  | nil => rfl
  | cons n ms ih =>
    have less : n.1 < key := greatest n.1 List.mem_cons_self
    rw [insertMember, if_neg (lt_asymm less), if_neg (ne_of_gt less),
      ih fun k mem => greatest k (List.mem_cons_of_mem n.1 mem)]
    rfl

theorem sortMembers_concat (ms : List (String × Value)) (m : String × Value) :
    sortMembers (ms ++ [m]) = insertMember m.1 m.2 (sortMembers ms) :=
  List.foldl_concat _ _ m ms

theorem mem_sortMembers (mem : m ∈ sortMembers ms) : m ∈ ms := by
  induction ms using List.reverseRecOn with
  | nil => exact mem
  | append_singleton ms n ih =>
    rw [sortMembers_concat] at mem
    rcases mem_insertMember mem with rfl | mem
    · exact List.mem_append_right ms List.mem_cons_self
    · exact List.mem_append_left [n] (ih mem)

theorem sortMembers_ascending (ms : List (String × Value)) : Ascending (sortMembers ms) := by
  induction ms using List.reverseRecOn with
  | nil => exact .nil
  | append_singleton ms n ih =>
    rw [sortMembers_concat]
    exact insertMember_ascending ih

theorem sortMembers_of_ascending (ascending : Ascending ms) : sortMembers ms = ms := by
  induction ms using List.reverseRecOn with
  | nil => rfl
  | append_singleton ms n ih =>
    rw [Ascending, keys, List.map_append, List.pairwise_append] at ascending
    obtain ⟨before, -, less⟩ := ascending
    rw [sortMembers_concat, ih before,
      insertMember_greatest fun k mem => less k mem n.1 (List.mem_singleton_self n.1)]

theorem sortMembers_perm (nodup : (keys ms).Nodup) : (sortMembers ms).Perm ms := by
  induction ms using List.reverseRecOn with
  | nil => exact .refl _
  | append_singleton ms n ih =>
    rw [keys, List.map_append, List.map_singleton, List.nodup_append] at nodup
    obtain ⟨before, -, new⟩ := nodup
    have absent : n.1 ∉ keys (sortMembers ms) := fun mem =>
      new n.1 (((ih before).map _).mem_iff.1 mem) n.1 (List.mem_singleton_self n.1) rfl
    rw [sortMembers_concat]
    exact ((insertMember_perm absent).trans ((ih before).cons n)).trans
      (List.perm_append_singleton n ms).symm

theorem lookup_sortMembers (nodup : (keys ms).Nodup) (name : String) :
    (sortMembers ms).lookup name = ms.lookup name := by
  have perm := sortMembers_perm nodup
  have sorted : (keys (sortMembers ms)).Nodup := (perm.map _).nodup_iff.2 nodup
  refine Option.ext fun v => ?_
  rw [lookup_eq_some_iff sorted, lookup_eq_some_iff nodup, perm.mem_iff]

theorem canonicalItems_eq (vs : List Value) : canonicalItems vs = vs.map canonical := by
  induction vs with
  | nil => rfl
  | cons v vs ih => rw [canonicalItems, ih, List.map_cons]

theorem canonicalMembers_eq (ms : List (String × Value)) :
    canonicalMembers ms = ms.map fun m => (m.1, m.2.canonical) := by
  induction ms with
  | nil => rfl
  | cons m ms ih => rw [canonicalMembers, ih, List.map_cons]

mutual

theorem canonical_canonical : ∀ v : Value, v.canonical.canonical = v.canonical
  | .null => rfl
  | .boolean _ => rfl
  | .integer _ => rfl
  | .float _ => rfl
  | .string _ => rfl
  | .list items => by simp only [canonical, canonicalItems_canonicalItems items]
  | .object members => by
    -- The values of the sorted members are canonical already, so only their order is left to see.
    have fixed : canonicalMembers (sortMembers (canonicalMembers members)) =
        sortMembers (canonicalMembers members) := by
      rw [canonicalMembers_eq (sortMembers _)]
      refine (List.map_congr_left fun m mem => ?_).trans (List.map_id _)
      rw [canonical_of_mem members m (mem_sortMembers mem), id]
    rw [canonical, canonical, fixed,
      sortMembers_of_ascending (sortMembers_ascending (canonicalMembers members))]

theorem canonicalItems_canonicalItems :
    ∀ vs : List Value, canonicalItems (canonicalItems vs) = canonicalItems vs
  | [] => rfl
  | v :: vs => by
    rw [canonicalItems, canonicalItems, canonical_canonical v, canonicalItems_canonicalItems vs]

theorem canonical_of_mem :
    ∀ ms : List (String × Value), ∀ m ∈ canonicalMembers ms, m.2.canonical = m.2
  | [], _, mem => nomatch mem
  | (k, v) :: ms, m, mem => by
    rcases List.mem_cons.1 mem with rfl | later
    · exact canonical_canonical v
    · exact canonical_of_mem ms m later

end

end Value

theorem Readable.canonical {depth : Nat} {v : Value} (readable : Readable depth v) :
    Readable depth v.canonical := by
  induction readable with
  | null => exact .null
  | boolean b => exact .boolean b
  | integer fits => exact .integer fits
  | string text => exact .string text
  | list all ih =>
    rw [Value.canonical, Value.canonicalItems_eq]
    refine .list fun v mem => ?_
    obtain ⟨w, old, rfl⟩ := List.mem_map.1 mem
    exact ih w old
  | object all ih =>
    rw [Value.canonical, Value.canonicalMembers_eq]
    refine .object fun m mem => ?_
    obtain ⟨n, old, rfl⟩ := List.mem_map.1 (Value.mem_sortMembers mem)
    exact ih n old

end SessionCourier.Json
