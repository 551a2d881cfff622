import SessionCourier.Delivery.Pool.Step
import SessionCourier.Proofs.Shard.Deeds

set_option autoImplicit false

namespace SessionCourier.Pool

variable {clock : Nat} {p p' : Pool} {a : Action} {out : List Output}

def Output.shard? : Output → Option (Nat × Shard.Output)
  | .shard k x => some (k, x)
  | _ => none

/-- The shard that an action is for, and what it does there. -/
def errand? (p : Pool) : Action → Option (Nat × Shard.Action)
  | .notify n =>
    if p.cancelled then none
    else
      match p.registry.lookup n.handle with
      | .error _ => none
      | .ok addr => some (p.shardOf n.handle, .add addr n)
  | .delete h => some (p.shardOf h, .delete h)
  | .offer k id n => some (k, .offer id n)
  | .move k m => some (k, .move m)
  | .register .. | .unregister _ | .shutDown | .join => none

theorem errand_of_notify {k : Nat} {b : Shard.Action} {n : Notice}
    (errand : p.errand? (.notify n) = some (k, b)) :
    p.cancelled = false ∧ k = p.shardOf n.handle ∧ ∃ addr, b = .add addr n := by
  cases late : p.cancelled with
  | true => simp [errand?, late] at errand
  | false =>
    cases known : p.registry.lookup n.handle with
    | error => simp [errand?, late, known] at errand
    | ok addr =>
      obtain ⟨rfl, rfl⟩ := by simpa [errand?, late, known] using errand
      exact ⟨rfl, rfl, addr, rfl⟩

theorem errand_of_add {k : Nat} {addr : Address} {n : Notice}
    (errand : p.errand? a = some (k, .add addr n)) :
    k = p.shardOf n.handle ∧ p.cancelled = false := by
  cases a with
  | notify n' =>
    obtain ⟨open_, rfl, addr', eq⟩ := errand_of_notify errand
    cases eq
    exact ⟨rfl, open_⟩
  | delete | offer | move | register | unregister | shutDown | join => cases errand

theorem errand_of_offer {k id : Nat} {n : Notice} (errand : p.errand? a = some (k, .offer id n)) :
    a = .offer k id n := by
  cases a with
  | notify n' =>
    obtain ⟨-, -, addr, eq⟩ := errand_of_notify errand
    cases eq
  | offer =>
    cases errand
    rfl
  | delete | move | register | unregister | shutDown | join => cases errand

/-- What becomes of the shards, and what they say. -/
inductive Change (clock : Nat) (p : Pool) (a : Action) : Pool → List Output → Prop where
  | rests {p' : Pool} {out : List Output} (idle : p.errand? a = none)
      (policy : p'.policy = p.policy) (shards : p'.shards = p.shards)
      (silent : out.filterMap Output.shard? = []) : Change clock p a p' out
  | works {k : Nat} {b : Shard.Action} {s s' : Shard} {said : List Shard.Output}
      {out : List Output} (errand : p.errand? a = some (k, b)) (has : p.shards[k]? = some s)
      (stops : b = .move .stop → p.cancelled = true)
      (taken : Shard.step p.policy clock s b = some (s', said))
      (tells : out.filterMap Output.shard? = said.map (k, ·)) :
      Change clock p a { p with shards := p.shards.set k s' } out

theorem outputs_of_shard (said : List Shard.Output) (k : Nat) :
    (said.map (Output.shard k)).filterMap Output.shard? = said.map (k, ·) := by
  rw [List.filterMap_map, ← List.filterMap_eq_map]
  rfl

theorem within_cases {k : Nat} {b : Shard.Action} (h : p.within clock k b = some (p', out)) :
    ∃ s s' said, p.shards[k]? = some s ∧ Shard.step p.policy clock s b = some (s', said) ∧
      p' = { p with shards := p.shards.set k s' } ∧ out = said.map (.shard k) := by
  simp only [within, Option.bind_eq_bind, Option.bind_eq_some_iff, Option.pure_def,
    Option.some.injEq] at h
  obtain ⟨s, has, ⟨s', said⟩, taken, eq⟩ := h
  obtain ⟨rfl, rfl⟩ := Prod.mk.inj eq
  exact ⟨s, s', said, has, taken, rfl, rfl⟩

theorem works_within {k : Nat} {b : Shard.Action} {out₁ : List Output}
    (errand : p.errand? a = some (k, b)) (stops : b = .move .stop → p.cancelled = true)
    (h : p.within clock k b = some (p', out₁))
    (tells : out.filterMap Output.shard? = out₁.filterMap Output.shard?) :
    Change clock p a p' out := by
  obtain ⟨s, s', said, has, taken, rfl, rfl⟩ := within_cases h
  exact .works errand has stops taken (tells.trans (outputs_of_shard said k))

/-- Those who notify count and log, whatever becomes of the notice. -/
def announces (n : Notice) : List Output := .enter (span n) :: (happenings n).map .count

theorem announces_silent (n : Notice) : (announces n).filterMap Output.shard? = [] := by
  rw [announces, List.filterMap_cons_none rfl, List.filterMap_eq_nil_iff]
  intro x mem
  obtain ⟨happening, -, rfl⟩ := List.mem_map.1 mem
  rfl

theorem notify_cases {n : Notice} (h : p.notify clock n = some (p', out)) :
    (p.errand? (.notify n) = none ∧ p' = p ∧ ∃ e, out = announces n ++ [.log e]) ∨
      ∃ addr out₁ e, p.errand? (.notify n) = some (p.shardOf n.handle, .add addr n) ∧
        p.within clock (p.shardOf n.handle) (.add addr n) = some (p', out₁) ∧
        out = announces n ++ .log e :: out₁ := by
  rw [notify, Option.map_eq_map, Option.map_eq_some_iff] at h
  obtain ⟨⟨p₁, out₁⟩, h, eq⟩ := h
  obtain ⟨rfl, rfl⟩ := Prod.mk.inj eq
  by_cases late : p.cancelled = true
  · rw [if_pos late] at h
    obtain ⟨rfl, rfl⟩ := Prod.mk.inj (Option.some_inj.1 h)
    exact .inl ⟨by simp [errand?, late], rfl, _, rfl⟩
  · rw [if_neg late] at h
    cases known : p.registry.lookup n.handle with
    | error e =>
      simp only [known] at h
      obtain ⟨rfl, rfl⟩ := Prod.mk.inj (Option.some_inj.1 h)
      exact .inl ⟨by simp [errand?, known], rfl, _, rfl⟩
    | ok addr =>
      simp only [known, Option.map_eq_map, Option.map_eq_some_iff] at h
      obtain ⟨⟨p₂, out₂⟩, h, eq⟩ := h
      obtain ⟨rfl, rfl⟩ := Prod.mk.inj eq
      exact .inr ⟨addr, out₂, _, by simp [errand?, late, known], h, rfl⟩

theorem delete_cases {h' : Handle} (h : p.delete clock h' = some (p', out)) :
    ∃ out₁ log, p.within clock (p.shardOf h') (.delete h') = some (p', out₁) ∧
      out = .enter .delete :: out₁ ++ log ∧ ∀ x ∈ log, ∃ e, x = Output.log e := by
  rw [delete, Option.map_eq_map, Option.map_eq_some_iff] at h
  obtain ⟨⟨p₁, out₁⟩, h, eq⟩ := h
  obtain ⟨rfl, rfl⟩ := Prod.mk.inj eq
  refine ⟨out₁, _, h, rfl, fun x mem => ?_⟩
  split at mem
  · exact ⟨_, List.mem_singleton.1 mem⟩
  · cases mem

theorem notify_change {n : Notice} (h : p.notify clock n = some (p', out)) :
    Change clock p (.notify n) p' out := by
  have silent := announces_silent n
  rcases notify_cases h with ⟨idle, rfl, e, rfl⟩ | ⟨addr, out₁, e, errand, within, rfl⟩
  · refine .rests idle rfl rfl ?_
    rw [List.filterMap_append, silent]
    rfl
  · refine works_within errand nofun within ?_
    rw [List.filterMap_append, silent]
    rfl

theorem delete_change {h' : Handle} (h : p.delete clock h' = some (p', out)) :
    Change clock p (.delete h') p' out := by
  obtain ⟨out₁, log, within, rfl, logs⟩ := delete_cases h
  have silent : log.filterMap Output.shard? = [] := by
    refine List.filterMap_eq_nil_iff.2 fun x mem => ?_
    obtain ⟨e, rfl⟩ := logs x mem
    rfl
  refine works_within rfl nofun within ?_
  rw [List.cons_append, List.filterMap_cons_none rfl, List.filterMap_append, silent,
    List.append_nil]

theorem move_within {k : Nat} {m : Shard.Move} (h : p.move clock k m = some (p', out)) :
    p.within clock k (.move m) = some (p', out) ∧ (m = .stop → p.cancelled = true) := by
  have stops : m = .stop → p.cancelled = true := by
    intro stop
    cases running : p.cancelled with
    | true => rfl
    | false => simp [move, stop, running] at h
  refine ⟨?_, stops⟩
  cases m with
  | stop => simpa [move, stops rfl] using h
  | start | wake | poll | survey | sweep | proceed | answer | ended => exact h

theorem move_change {k : Nat} {m : Shard.Move} (h : p.move clock k m = some (p', out)) :
    Change clock p (.move k m) p' out := by
  obtain ⟨within, stops⟩ := move_within h
  exact works_within rfl (fun eq => stops (Shard.Action.move.inj eq)) within rfl

theorem step_change (h : step clock p a = some (p', out)) : Change clock p a p' out := by
  cases a with
  | notify n => exact notify_change h
  | delete h' => exact delete_change h
  | register h' addr | unregister h' =>
    obtain ⟨rfl, rfl⟩ := Prod.mk.inj (Option.some_inj.1 h)
    exact .rests rfl rfl rfl rfl
  | offer k id n => exact works_within rfl nofun h rfl
  | shutDown =>
    have eq : p.shutDown = (p', out) := Option.some_inj.1 h
    unfold shutDown at eq
    split at eq
    all_goals
      obtain ⟨rfl, rfl⟩ := Prod.mk.inj eq
      exact .rests rfl rfl rfl rfl
  | join =>
    simp only [step] at h
    split at h
    · obtain ⟨rfl, rfl⟩ := Prod.mk.inj (Option.some_inj.1 h)
      exact .rests rfl rfl rfl rfl
    · simp at h
  | move k m => exact move_change h

end SessionCourier.Pool
