import SessionCourier.Proofs.Outbox.Order
import SessionCourier.Proofs.Pool.History
import SessionCourier.Proofs.Shard.Sound

set_option autoImplicit false

namespace SessionCourier.Pool

variable {clock : Nat} {p p' : Pool} {a : Action} {out : List Output} {ts : List Turn} {t : Turn}
  {x : Place} {o o' : Outbox} {u : Outbox.Turn} {n : Notice}

theorem shard_of_outboxAt (has : p.outboxAt? x = some o) :
    ∃ s, p.shards[x.1]? = some s ∧ s.outbox? x.2 = some o := by
  rw [outboxAt?, outbox?, Option.bind_eq_bind, Option.bind_eq_some_iff] at has
  exact has

theorem outboxAt_of_lt {k i j : Nat} (has : p.outboxAt? (k, j) = some o) (lt : i < j) :
    ∃ o₁, p.outboxAt? (k, i) = some o₁ := by
  obtain ⟨s, at_, has⟩ := shard_of_outboxAt has
  have lt' := Nat.lt_trans lt (Shard.outbox_lt has)
  exact ⟨_, by rw [outboxAt?, outbox?, at_]; exact List.getElem?_eq_getElem lt'⟩

theorem of_deed (deed : deed? t = some (x, u)) :
    ∃ b s, t.before.errand? t.action = some (x.1, b) ∧ t.before.shards[x.1]? = some s ∧
      s.deed? t.clock b = some ⟨x.2, u.before, u.action⟩ := by
  simp only [deed?, Option.bind_eq_bind, Option.bind_eq_some_iff, Option.pure_def,
    Option.some.injEq, Prod.mk.injEq] at deed
  obtain ⟨⟨k, b⟩, errand, s, has, d, deed, rfl, rfl⟩ := deed
  exact ⟨b, s, errand, has, deed⟩

structure Sound (p : Pool) : Prop where
  shards : ∀ (k : Nat) (s : Shard), p.shards[k]? = some s → s.Sound
  routed : ∀ x o, p.outboxAt? x = some o → x.1 = p.shardOf o.handle

theorem Change.length (change : Change clock p a p' out) : p'.shards.length = p.shards.length := by
  cases change with
  | rests _ _ shards => rw [shards]
  | works => exact List.length_set

theorem Change.shardOf (change : Change clock p a p' out) (h : Handle) :
    p'.shardOf h = p.shardOf h := by
  rw [Pool.shardOf, Pool.shardOf, change.length]

theorem sound_fresh (fresh : Fresh p) : Sound p where
  shards k s has := fresh.shard has ▸ Shard.sound_create k
  routed x o has := by simp [fresh.outboxAt] at has

namespace Sound

theorem step (sound : Sound p) (h : step clock p a = some (p', out)) : Sound p' := by
  have change := step_change h
  have acts := change.acts.2
  refine ⟨?_, ?_⟩
  · cases change with
    | rests _ _ shards =>
      rw [shards]
      exact sound.shards
    | @works k b s s' said _ _ has _ taken =>
      intro j s₁ has'
      rw [List.getElem?_set] at has'
      split at has'
      · have sound' := (sound.shards k s has).step (Shard.step_change taken)
        split at has'
        · exact Option.some_inj.1 has' ▸ sound'
        · cases has'
      · exact sound.shards j s₁ has'
  · intro y o₁ has
    rw [change.shardOf]
    generalize deed? ⟨clock, p, a, out⟩ = d at acts
    generalize out.filterMap Output.outbox? = said at acts
    cases acts with
    | rests same => exact sound.routed y o₁ (same y ▸ has)
    | acts was taken now =>
      rw [now] at has
      split at has
      · rename_i same
        obtain rfl := Option.some_inj.1 has
        rw [same, (Outbox.step_change taken).handle]
        exact sound.routed _ _ was
      · exact sound.routed y o₁ has
    | begins routed _ fresh _ taken now =>
      rw [now] at has
      split at has
      · rename_i same
        obtain rfl := Option.some_inj.1 has
        rw [same, (Outbox.step_change taken).handle, fresh]
        exact routed
      · exact sound.routed y o₁ has

/-- A session has a new outbox only when the old one is detached. -/
theorem older (sound : Sound p) {k i j : Nat} (hasi : p.outboxAt? (k, i) = some o)
    (hasj : p.outboxAt? (k, j) = some o') (lt : i < j) (same : o.handle = o'.handle) :
    o.detached = true := by
  obtain ⟨s, at_, hasi⟩ := shard_of_outboxAt hasi
  obtain ⟨s', at', hasj⟩ := shard_of_outboxAt hasj
  obtain rfl := Option.some_inj.1 (at_.symm.trans at')
  exact (sound.shards k s at_).older i j o o' hasi hasj lt same

theorem free (sound : Sound t.before) (deed : deed? t = some (x, u))
    (adds : ∀ n, u.action ≠ .enqueue n) (detaches : u.action ≠ .detach) {j : Nat} (other : j ≠ x.2)
    (has : t.before.outboxAt? (x.1, j) = some o) : o.holder = none := by
  obtain ⟨b, s, -, at_, deed⟩ := of_deed deed
  obtain ⟨s', at', has⟩ := shard_of_outboxAt has
  obtain rfl := Option.some_inj.1 (at_.symm.trans at')
  have only := Shard.deed_of_worker deed adds detaches
  exact (sound.shards x.1 s at_).free has fun phase busy => other (only j phase busy)

end Sound

theorem sound_of_trace {p₀ : Pool} (fresh : Fresh p₀) (run : Trace step p₀ ts p) : Sound p :=
  run.invariant (fun last sound => sound.step last) (sound_fresh fresh)

theorem liveId_of_attached (sound : Sound p) {k id : Nat} {s : Shard} (has : p.shards[k]? = some s)
    (has' : s.outbox? id = some o) (attached : o.detached = false) :
    p.liveId? o.handle = some (k, id) := by
  have routed : k = p.shardOf o.handle := sound.routed (k, id) o ((outboxAt_of_shard has).trans has')
  have known := (sound.shards k s has).live id o has' o.handle
  have mem := known.2 ⟨rfl, attached⟩
  have live := Shard.liveId_of_mem (sound.shards k s has).keys mem
  rw [liveId?, ← routed, has]
  simp [live]

end SessionCourier.Pool
