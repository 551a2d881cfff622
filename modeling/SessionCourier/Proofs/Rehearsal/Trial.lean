import SessionCourier.Proofs.Pool.Accounts
import SessionCourier.Rehearsal.Trial

set_option autoImplicit false

namespace SessionCourier

namespace Pool

variable {ts us : List Turn}

def Action.call? : Action → Option Action
  | .move .. => none
  | a => some a

def calls (ts : List Turn) : List Action := ts.filterMap (·.action.call?)

@[simp] theorem calls_append : calls (ts ++ us) = calls ts ++ calls us := List.filterMap_append

end Pool

namespace Rehearsal

variable {σ β : Type} {t t' t'' : Trial σ} {as bs : List Pool.Action} {a : Pool.Action}
  {limit : Option Nat}

/-- One rehearsal becomes another while its callers do this and its workers do something. -/
def Leads (as : List Pool.Action) (t t' : Trial σ) : Prop :=
  ∃ ts, Trace Pool.step t.pool ts t'.pool ∧ Pool.calls ts = as ∧
    t'.said = t.said ++ ts.flatMap (·.outputs)

namespace Leads

theorem of_same (pool : t'.pool = t.pool) (said : t'.said = t.said) : Leads [] t t' :=
  ⟨[], pool ▸ .refl, rfl, by rw [said, List.flatMap_nil, List.append_nil]⟩

theorem refl (t : Trial σ) : Leads [] t t := of_same rfl rfl

theorem trans (first : Leads as t t') (rest : Leads bs t' t'') : Leads (as ++ bs) t t'' := by
  obtain ⟨ts, run, rfl, said⟩ := first
  obtain ⟨us, run', rfl, said'⟩ := rest
  refine ⟨ts ++ us, run.append run', Pool.calls_append, ?_⟩
  rw [said', said, List.flatMap_append, List.append_assoc]

theorem of_step {clock : Nat} {out : List Pool.Output}
    (taken : Pool.step clock t.pool a = some (t'.pool, out)) (said : t'.said = t.said ++ out) :
    Leads a.call?.toList t t' := by
  refine ⟨[⟨clock, t.pool, a, out⟩], .single taken, ?_, ?_⟩
  · cases call : a.call? <;> simp [Pool.calls, call]
  · rw [said, List.flatMap_singleton]

theorem foldl {f : Trial σ → β → Trial σ} (each : ∀ t b, Leads [] t (f t b)) (l : List β)
    (t : Trial σ) : Leads [] t (l.foldl f t) := by
  induction l generalizing t with
  | nil => exact refl t
  | cons b l ih => exact (each t b).trans (ih (f t b))

end Leads

namespace Trial

theorem ask_leads (t : Trial σ) (k : Nat) (out : Pool.Output) : Leads [] t (t.ask k out) := by
  unfold ask
  split
  · split
    · exact .refl t
    · split <;> exact .of_same rfl rfl
  · exact .refl t

theorem move_leads (t : Trial σ) (k : Nat) (m : Shard.Move) : Leads [] t (t.move k m) := by
  unfold move
  split
  · exact .refl t
  · rename_i pool outputs taken
    have moved : Leads [] t { t with pool := pool, said := t.said ++ outputs } :=
      .of_step (a := .move k m) taken rfl
    exact moved.trans (.foldl (fun t out => t.ask_leads k out) outputs _)

theorem receive_leads (t : Trial σ) (k id : Nat) (w : Awaited) : Leads [] t (t.receive k id w) := by
  unfold receive
  split
  · exact .refl t
  · rename_i o _
    have arrived : Leads [] t { t with
        outside := t.world.arrive t.outside o.address w
        awaited := t.awaited.set k none } := .of_same rfl rfl
    exact arrived.trans (move_leads _ k _)

theorem next_leads {s : Shard} {moment : Nat} {go : Trial σ → Trial σ}
    (h : next? limit t s = some (moment, go)) (t' : Trial σ) : Leads [] t' (go t') := by
  unfold next? at h
  dsimp only at h
  split at h
  · obtain ⟨-, rfl⟩ := Prod.mk.inj (Option.some_inj.1 h)
    exact t'.move_leads _ _
  · obtain ⟨-, rfl⟩ := Prod.mk.inj (Option.some_inj.1 h)
    exact t'.move_leads _ _
  · split at h
    · obtain ⟨-, rfl⟩ := Prod.mk.inj (Option.some_inj.1 h)
      exact t'.receive_leads _ _ _
    · cases h
  · obtain ⟨-, rfl⟩ := Prod.mk.inj (Option.some_inj.1 h)
    exact t'.move_leads _ _
  · cases h

theorem settleFor_leads (limit : Option Nat) (k n : Nat) (t : Trial σ) :
    Leads [] t (settleFor limit k n t) := by
  induction n generalizing t with
  | zero => exact .refl t
  | succ n ih =>
    unfold settleFor
    split
    · exact .refl t
    · split
      · exact .refl t
      · rename_i next
        split
        · exact (next_leads next t).trans (ih _)
        · exact .refl t

theorem settleAll_leads (limit : Option Nat) (t : Trial σ) : Leads [] t (settleAll limit t) :=
  .foldl (fun t (s : Shard) => settleFor_leads limit s.index (load s) t) t.pool.shards t

theorem runFor_leads (limit : Option Nat) (n : Nat) (t : Trial σ) :
    Leads [] t (runFor limit n t) := by
  induction n generalizing t with
  | zero => exact .refl t
  | succ n ih =>
    have settled := settleAll_leads limit t
    unfold runFor
    dsimp only
    split
    · exact settled
    · rename_i moment _
      split
      · have later : Leads [] (settleAll limit t) { settleAll limit t with clock := moment } :=
          .of_same rfl rfl
        exact settled.trans (later.trans (ih _))
      · exact settled

theorem sleep_leads (t : Trial σ) (ms : Nat) : Leads [] t (t.sleep ms) :=
  (runFor_leads _ _ t).trans (.of_same rfl rfl)

theorem act_leads (t : Trial σ) (a : Pool.Action) :
    Leads a.call?.toList t (t.act a) ∨ Leads [] t (t.act a) := by
  unfold act
  split
  · exact .inr (.refl t)
  · rename_i taken
    exact .inl (.of_step taken rfl)

theorem act_of_isSome {out : List Pool.Output} {p : Pool}
    (taken : Pool.step t.clock t.pool a = some (p, out)) :
    Leads a.call?.toList t (t.act a) := by
  unfold act
  rw [taken]
  exact .of_step taken rfl

theorem shutDown_leads (t : Trial σ) : ∃ as, as <+: [.shutDown, .join] ∧ Leads as t t.shutDown := by
  have stopping : Leads [.shutDown] t (t.act .shutDown) := act_of_isSome rfl
  have waited := runFor_leads none
    ((t.act .shutDown).pool.shards.foldr (load · + ·) 1) (t.act .shutDown)
  rcases act_leads (runFor none _ (t.act .shutDown)) .join with joined | stuck
  · exact ⟨_, List.prefix_refl _, stopping.trans (waited.trans joined)⟩
  · exact ⟨_, ⟨[.join], rfl⟩, stopping.trans (waited.trans stuck)⟩

theorem tell_leads {settings : Settings} {registry : Registry} {p₀ : Pool} {out₀ : List Pool.Output}
    {ts : List Pool.Turn} (started : Pool.start settings registry true = .ok (p₀, out₀))
    (run : Trace Pool.step p₀ ts t.pool) (ns : List Notice) :
    Leads (ns.map .notify) t ((ns.map Pool.Action.notify).foldl act t) := by
  induction ns generalizing t ts with
  | nil => exact .refl t
  | cons n ns ih =>
    have sound := Pool.sound_of_trace (Pool.start_fresh started) run
    obtain ⟨p, out, taken⟩ := Pool.notify_isSome sound (Pool.start_shards started run) t.clock n
    have told : Leads [.notify n] t (t.act (.notify n)) := act_of_isSome taken
    have ⟨us, run', _⟩ := told
    exact told.trans (ih (run.append run'))

end Trial

end Rehearsal

end SessionCourier
