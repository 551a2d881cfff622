import Mathlib.Algebra.Group.Nat.Defs
import Mathlib.Data.List.Induction
import Mathlib.Data.List.Nodup
import SessionCourier.CommandLine.Invocation

set_option autoImplicit false

namespace SessionCourier

/-- The numbers of what is granted or revoked. -/
def Notice.ids : Notice → List UInt32
  | .grant _ gs | .revoke _ gs _ => gs.map (·.id)
  | .deadNode .. => []

theorem Registry.address_register (r : Registry) (h h' : Handle) (a : Address) :
    (r.register h a).address? h' = if h = h' then some a else r.address? h' := by
  have erased : h ≠ h' → (r.entries.filter (·.1 ≠ h)).lookup h' = r.entries.lookup h' := by
    intro other
    induction r.entries with
    | nil => rfl
    | cons e entries ih =>
      obtain ⟨k, b⟩ := e
      by_cases same : k = h
      · have skipped : (h' == k) = false := beq_false_of_ne (same ▸ other.symm)
        rw [List.filter_cons_of_neg (by simp [same]), ih, List.lookup_cons, skipped]
      · rw [List.filter_cons_of_pos (by simp [same]), List.lookup_cons, List.lookup_cons, ih]
  rw [register, address?, List.lookup_cons]
  by_cases same : h = h'
  · simp [same]
  · rw [beq_false_of_ne (Ne.symm same), if_neg same]
    exact erased same

namespace CommandLine.Notify

variable {n : Notify} {h : Handle}

theorem grantNotices_eq (n : Notify) :
    n.grantNotices = (n.grants.zipIdx 1).map fun g => .grant g.1.1 [n.grant g.2 g.1.2] := by
  rw [grantNotices, List.mapIdx_eq_zipIdx_map, List.zipIdx_eq_map_add (l := n.grants) (i := 1),
    List.map_map]
  refine List.map_congr_left fun ⟨g, i⟩ _ => ?_
  simp only [Function.comp_apply, Nat.add_comm 1 i]

theorem revokeNotices_eq (n : Notify) :
    n.revokeNotices = (n.revokes.zipIdx (n.grants.length + 1)).map fun r =>
      .revoke r.1.1 [n.grant r.2 r.1.2] n.force := by
  rw [revokeNotices, List.mapIdx_eq_zipIdx_map,
    List.zipIdx_eq_map_add (l := n.revokes) (i := n.grants.length + 1), List.map_map]
  refine List.map_congr_left fun ⟨r, i⟩ _ => ?_
  simp only [Function.comp_apply, Nat.add_right_comm]

theorem ids_eq (n : Notify) : n.notices.flatMap Notice.ids =
    (List.range' 1 (n.grants.length + n.revokes.length)).map UInt32.ofNat := by
  have grants : n.grantNotices.flatMap Notice.ids =
      (List.range' 1 n.grants.length).map UInt32.ofNat := by
    rw [grantNotices_eq, List.flatMap_map, ← List.zipIdx_map_snd 1 n.grants, List.map_map,
      List.map_eq_flatMap]
    rfl
  have revokes : n.revokeNotices.flatMap Notice.ids =
      (List.range' (1 + n.grants.length) n.revokes.length).map UInt32.ofNat := by
    rw [revokeNotices_eq, List.flatMap_map, Nat.add_comm 1,
      ← List.zipIdx_map_snd (n.grants.length + 1) n.revokes, List.map_map, List.map_eq_flatMap]
    rfl
  have others : n.deadNodeNotices.flatMap Notice.ids = [] := by
    rw [deadNodeNotices, List.flatMap_map]
    exact List.flatMap_eq_nil_iff.2 fun _ _ => rfl
  rw [notices, List.flatMap_append, List.flatMap_append, grants, revokes, others, List.append_nil,
    ← List.map_append, List.range'_append_1]

/-- Numbers from one upward are distinct until they wrap. -/
theorem ids_nodup (n : Notify) :
    (n.notices.flatMap Notice.ids).Nodup ↔ n.grants.length + n.revokes.length ≤ 2 ^ 32 := by
  rw [ids_eq]
  constructor
  · intro nodup
    by_contra many
    have first : 1 ∈ List.range' 1 (n.grants.length + n.revokes.length) :=
      List.mem_range'_1.2 (by omega)
    have again : 2 ^ 32 + 1 ∈ List.range' 1 (n.grants.length + n.revokes.length) :=
      List.mem_range'_1.2 (by omega)
    have same : UInt32.ofNat 1 = UInt32.ofNat (2 ^ 32 + 1) := rfl
    have := List.inj_on_of_nodup_map nodup first again same
    omega
  · intro few
    refine List.Nodup.map_on (fun i memi j memj same => ?_) List.nodup_range'
    have i_bound := List.mem_range'_1.1 memi
    have j_bound := List.mem_range'_1.1 memj
    have mods := congrArg UInt32.toNat same
    rw [UInt32.toNat_ofNat', UInt32.toNat_ofNat'] at mods
    omega

def due (n : Notify) (h : Handle) : List Notice :=
  ((n.grants.zipIdx 1).filter (·.1.1 = h)).map (fun g => .grant h [n.grant g.2 g.1.2]) ++
  ((n.revokes.zipIdx (n.grants.length + 1)).filter (·.1.1 = h)).map
    (fun r => .revoke h [n.grant r.2 r.1.2] n.force) ++
  (n.deadNodes.filter (·.1 = h)).map fun d => .deadNode h d.2

theorem filter_notices (n : Notify) (h : Handle) : n.notices.filter (·.handle = h) = n.due h := by
  -- Where the handle is filtered for, it may be named as well.
  have named {α : Type} (l : List α) (key : α → Handle) (f : Handle → α → Notice)
      (own : ∀ a, (f (key a) a).handle = key a) :
      (l.map fun a => f (key a) a).filter (·.handle = h) =
        (l.filter (key · = h)).map (f h) := by
    rw [List.filter_map]
    have same : ((fun m : Notice => decide (m.handle = h)) ∘ fun a => f (key a) a) =
        fun a => decide (key a = h) := funext fun a => by rw [Function.comp_apply, own]
    rw [same]
    refine List.map_congr_left fun a mem => ?_
    rw [of_decide_eq_true (List.mem_filter.1 mem).2]
  rw [notices, List.filter_append, List.filter_append, grantNotices_eq, revokeNotices_eq,
    deadNodeNotices, due]
  rw [named (n.grants.zipIdx 1) (·.1.1) (fun h g => .grant h [n.grant g.2 g.1.2]) fun _ => rfl,
    named (n.revokes.zipIdx (n.grants.length + 1)) (·.1.1)
      (fun h r => .revoke h [n.grant r.2 r.1.2] n.force) fun _ => rfl,
    named n.deadNodes (·.1) (fun h d => .deadNode h d.2) fun _ => rfl]

def address? (n : Notify) (h : Handle) : Option Address :=
  ((n.sessions.filter (·.1 = h)).getLast?).map (·.2)

theorem address_registry (n : Notify) (h : Handle) : n.registry.address? h = n.address? h := by
  rw [registry, address?]
  induction n.sessions using List.reverseRecOn with
  | nil => rfl
  | append_singleton sessions s ih =>
    rw [List.foldl_append, List.foldl_cons, List.foldl_nil, Registry.address_register, ih,
      List.filter_append]
    by_cases same : s.1 = h
    · simp [same]
    · simp [same]

theorem address_isSome : (n.address? h).isSome = true ↔ h ∈ n.sessions.map (·.1) := by
  rw [address?, Option.isSome_map, List.getLast?_isSome, List.mem_map]
  constructor
  · intro given
    obtain ⟨s, mem⟩ := List.exists_mem_of_ne_nil _ given
    obtain ⟨mem, own⟩ := List.mem_filter.1 mem
    exact ⟨s, mem, of_decide_eq_true own⟩
  · rintro ⟨s, mem, rfl⟩
    exact List.ne_nil_of_mem (List.mem_filter.2 ⟨mem, decide_eq_true rfl⟩)

end CommandLine.Notify

end SessionCourier
