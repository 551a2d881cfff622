import SessionCourier.Proofs.Pool.Sound
import SessionCourier.Proofs.Shard.History

set_option autoImplicit false

namespace SessionCourier.Pool

variable {clock k : Nat} {p p' : Pool} {a : Action} {out : List Output} {ts us : List Turn}
  {s s' : Shard}

def shardTurn? (t : Turn) : Option (Nat × Shard.Turn) := do
  let (k, b) ← t.before.errand? t.action
  let s ← t.before.shards[k]?
  return (k, ⟨t.clock, s, b, (t.outputs.filterMap Output.shard?).map (·.2)⟩)

def shardTurnAt? (k : Nat) (t : Turn) : Option Shard.Turn :=
  shardTurn? t >>= fun u => if u.1 = k then some u.2 else none

def turnsOf (k : Nat) (ts : List Turn) : List Shard.Turn := ts.filterMap (shardTurnAt? k)

@[simp] theorem turnsOf_append : turnsOf k (ts ++ us) = turnsOf k ts ++ turnsOf k us :=
  List.filterMap_append

@[simp] theorem turnsOf_single (t : Turn) : turnsOf k [t] = (shardTurnAt? k t).toList := by
  cases h : shardTurnAt? k t <;> simp [turnsOf, h]

theorem shard_of_step (h : step clock p a = some (p', out)) (has : p.shards[k]? = some s) :
    ∃ s', p'.policy = p.policy ∧ p'.shards[k]? = some s' ∧
      Trace (Shard.step p.policy) s (turnsOf k [⟨clock, p, a, out⟩]) s' := by
  rw [turnsOf_single]
  cases step_change h with
  | rests idle policy shards =>
    have none_taken : shardTurnAt? k ⟨clock, p, a, out⟩ = none := by
      simp [shardTurnAt?, shardTurn?, idle]
    rw [none_taken]
    exact ⟨s, policy, shards ▸ has, .refl⟩
  | @works j b s₁ s₁' said _ errand has₁ _ taken tells =>
    have turn : shardTurnAt? k ⟨clock, p, a, out⟩ =
        if j = k then some ⟨clock, s₁, b, said⟩ else none := by
      simp [shardTurnAt?, shardTurn?, errand, has₁, tells, Function.comp_def]
    rw [turn]
    by_cases same : j = k
    · subst same
      obtain rfl := Option.some_inj.1 (has₁.symm.trans has)
      have lt := (List.getElem?_eq_some_iff.1 has).1
      rw [if_pos rfl]
      exact ⟨s₁', rfl, List.getElem?_set_self lt, .single taken⟩
    · rw [if_neg same]
      exact ⟨s, rfl, (List.getElem?_set_ne same).trans has, .refl⟩

theorem shard_of_trace (run : Trace step p ts p') (has : p.shards[k]? = some s) :
    ∃ s', p'.policy = p.policy ∧ p'.shards[k]? = some s' ∧
      Trace (Shard.step p.policy) s (turnsOf k ts) s' := by
  induction run with
  | refl => exact ⟨s, rfl, has, .refl⟩
  | tail _ last ih =>
    obtain ⟨u, policy, hasu, run⟩ := ih
    obtain ⟨v, policy', hasv, one⟩ := shard_of_step last hasu
    rw [policy] at one policy'
    rw [turnsOf_append]
    exact ⟨v, policy', hasv, run.append one⟩

theorem shard_of_fresh {p₀ : Pool} (fresh : Fresh p₀) (run : Trace step p₀ ts p)
    (has : p.shards[k]? = some s) :
    p.policy = p₀.policy ∧ Trace (Shard.step p.policy) (Shard.create k) (turnsOf k ts) s := by
  have length : p.shards.length = p₀.shards.length :=
    run.invariant (P := fun q => q.shards.length = p₀.shards.length)
      (fun last ih => (step_change last).length.trans ih) rfl
  obtain ⟨s₀, has₀⟩ : ∃ s₀, p₀.shards[k]? = some s₀ :=
    ⟨_, List.getElem?_eq_getElem (length ▸ (List.getElem?_eq_some_iff.1 has).1)⟩
  obtain ⟨s', policy, has', run'⟩ := shard_of_trace run has₀
  obtain rfl := Option.some_inj.1 (has'.symm.trans has)
  rw [policy, ← fresh.shard has₀]
  exact ⟨rfl, run'⟩

end SessionCourier.Pool
