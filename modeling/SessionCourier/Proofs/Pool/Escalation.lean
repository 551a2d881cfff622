import SessionCourier.Proofs.Pool.Shards
import SessionCourier.Proofs.Pool.Sound
import SessionCourier.Proofs.Shard.Escalation

set_option autoImplicit false

namespace SessionCourier.Pool

variable {clock k : Nat} {p p' : Pool} {a : Action} {out : List Output} {ts us : List Turn}
  {t : Turn} {x : Place} {u : Outbox.Turn} {s s' : Shard} {h : Handle} {left : List Nat}

def ended (ts : List Turn) : List (Handle × Status) := said Output.ended? ts

def timeouts (ts : List Turn) : Nat := (said Output.happening? ts).count .timedOut

def exhausted (p : Pool) (h : Handle) : Nat := (p.shards.map (·.exhausted h)).sum

theorem sum_set {α : Type} (f : α → Nat) {l : List α} {i : Nat} {x : α} (has : l[i]? = some x)
    (y : α) : ((l.set i y).map f).sum + f x = (l.map f).sum + f y := by
  induction l generalizing i with
  | nil => cases has
  | cons z rest ih =>
    cases i with
    | zero =>
      obtain rfl := Option.some_inj.1 has
      rw [List.set_cons_zero, List.map_cons, List.map_cons, List.sum_cons, List.sum_cons]
      omega
    | succ i =>
      have one := ih (i := i) has
      rw [List.set_cons_succ, List.map_cons, List.map_cons, List.sum_cons, List.sum_cons]
      omega

theorem exhausted_set (has : p.shards[k]? = some s) (s' : Shard) (h : Handle) :
    { p with shards := p.shards.set k s' }.exhausted h + s.exhausted h =
      p.exhausted h + s'.exhausted h :=
  sum_set (·.exhausted h) has s'

theorem ended_of_shards (out : List Output) :
    out.filterMap Output.ended? = (out.filterMap Output.shard?).filterMap (·.2.ended?) := by
  rw [List.filterMap_filterMap]
  congr 1
  funext x
  rcases x with ⟨k, x⟩ | _ | _ | _
  · cases x <;> rfl
  · rfl
  · rfl
  · rfl

theorem uncounted_within {b : Shard.Action} (h : p.within clock k b = some (p', out))
    (happening : Metrics.Happening) : .count happening ∉ out := by
  obtain ⟨s, s', said, -, -, -, rfl⟩ := within_cases h
  simp

theorem counts_of_step {happening : Metrics.Happening} (h : step clock p a = some (p', out))
    (mem : .count happening ∈ out) : ∃ n, a = .notify n ∧ happening ∈ happenings n := by
  cases a with
  | notify n =>
    refine ⟨n, rfl, ?_⟩
    rcases notify_cases h with ⟨-, -, e, rfl⟩ | ⟨addr, out₁, e, -, within, rfl⟩
    · simpa [announces] using mem
    · simpa [announces, uncounted_within within] using mem
  | delete h' =>
    obtain ⟨out₁, log, within, rfl, logs⟩ := delete_cases h
    have unlogged : .count happening ∉ log := fun mem => by
      obtain ⟨e, eq⟩ := logs _ mem
      cases eq
    simp [uncounted_within within, unlogged] at mem
  | register | unregister =>
    obtain ⟨-, rfl⟩ := Prod.mk.inj (Option.some_inj.1 h)
    cases mem
  | offer => exact absurd mem (uncounted_within h happening)
  | shutDown =>
    have eq : p.shutDown = (p', out) := Option.some_inj.1 h
    unfold shutDown at eq
    split at eq
    all_goals
      obtain ⟨-, rfl⟩ := Prod.mk.inj eq
      simp at mem
  | join =>
    simp only [step] at h
    split at h
    · obtain ⟨-, rfl⟩ := Prod.mk.inj (Option.some_inj.1 h)
      simp at mem
    · cases h
  | move k m => exact absurd mem (uncounted_within (move_within h).1 happening)

theorem timeouts_of_step (h : step clock p a = some (p', out)) :
    (out.filterMap Output.happening?).count .timedOut =
      ((out.filterMap Output.shard?).filterMap (·.2.happening?)).count .timedOut := by
  have own : ∀ happening, .count happening ∈ out → happening ≠ .timedOut := by
    rintro happening mem rfl
    obtain ⟨n, -, mem⟩ := counts_of_step h mem
    cases n <;> simp [happenings] at mem
  rw [List.filterMap_filterMap, List.count_eq_countP, List.count_eq_countP, List.countP_filterMap,
    List.countP_filterMap]
  refine List.countP_congr fun x mem => ?_
  cases x with
  | shard k x => rfl
  | count happening =>
    have other := own happening mem
    simpa [Output.happening?, Output.shard?] using other
  | log | enter => rfl

/-- A flush of the live outbox `x` has used up the retries, and the end of its session is asked for. -/
structure Asks (t : Turn) (x : Place) (u : Outbox.Turn) : Prop where
  deed : deed? t = some (x, u)
  live : t.before.liveId? u.before.handle = some x
  attached : u.before.detached = false
  fit : u.before.exhausted = false
  last : t.before.policy.isExhausted (u.before.failures + 1) = true
  fails : (u.before.failing? u.action).isSome = true
  told : u.outputs.filterMap Outbox.Output.alive? = [false]
  asks : t.outputs.filterMap Output.ended? = [(u.before.handle, .timedOut)]

structure Tallied (t : Turn) (p' : Pool) : Prop where
  exhausted : ∀ h, p'.exhausted h =
    t.before.exhausted h + (t.outputs.filterMap Output.ended?).count (h, .timedOut)
  counted : (t.outputs.filterMap Output.happening?).count .timedOut =
    (t.outputs.filterMap Output.ended?).length
  asked : t.outputs.filterMap Output.ended? ≠ [] → ∃ x u, Asks t x u

theorem Traced.spent (traced : Traced ts p) (has : p.shards[k]? = some s) (id : Nat) (o : Outbox)
    (has' : s.outbox? id = some o) : o.exhausted = true → o.Spent := by
  obtain ⟨addr, run⟩ := traced.runs (k, id) o ((outboxAt_of_shard has).trans has')
  exact Outbox.spent_of_trace run

theorem tallied_of_step (sound : Sound p) (traced : Traced ts p)
    (h : step clock p a = some (p', out)) : Tallied ⟨clock, p, a, out⟩ p' := by
  have timeouts := timeouts_of_step h
  cases step_change h with
  | rests _ _ shards silent =>
    have quiet : out.filterMap Output.ended? = [] := by rw [ended_of_shards, silent]; rfl
    refine ⟨fun h => ?_, ?_, ?_⟩
    · rw [quiet, exhausted, exhausted, shards]
      rfl
    · rw [quiet, timeouts, silent]
      rfl
    · exact fun asked => absurd quiet asked
  | @works k b s s' said _ errand has _ taken tells =>
    have asks : out.filterMap Output.ended? = said.filterMap Shard.Output.ended? := by
      rw [ended_of_shards, tells, List.filterMap_map]
      rfl
    have counted : (out.filterMap Output.happening?).count .timedOut = Shard.timeouts said := by
      rw [timeouts, tells, List.filterMap_map]
      rfl
    rcases (Shard.step_change taken).asks (sound.shards k s has) (traced.spent has) with
      ⟨id, o, b', task, o', spoke, escalates⟩ | calm
    · have tells' := outputs_of_works tells escalates.spoke
      rw [places_of_outputs] at tells'
      have deed : deed? ⟨clock, p, a, out⟩ = some ((k, id), ⟨clock, o, b', spoke⟩) := by
        simp [deed?, errand, has, escalates.deed, tells', Function.comp_def]
      have exhausts := escalates.exhausts
      refine ⟨fun h => ?_, ?_, fun _ => ⟨(k, id), ⟨clock, o, b', spoke⟩, ?_⟩⟩
      · have one := exhausted_set has s' h
        have more := escalates.exhausted h
        rw [asks, escalates.asks, List.count_singleton]
        by_cases same : o.handle = h
        · simp only [same, decide_true, Bool.toNat_true, beq_self_eq_true, if_true] at more ⊢
          omega
        · simp only [same, decide_false, Bool.toNat_false, beq_iff_eq, Prod.mk.injEq, false_and,
            if_false] at more ⊢
          omega
      · rw [counted, asks, escalates.asks, escalates.counts]
        rfl
      · exact {
          deed := deed
          live := liveId_of_attached sound has escalates.has exhausts.live
          attached := exhausts.live
          fit := escalates.fit
          last := exhausts.last
          fails := by rw [escalates.failing]; rfl
          told := exhausts.told
          asks := by rw [asks, escalates.asks] }
    · have quiet : out.filterMap Output.ended? = [] := asks.trans calm.asks
      refine ⟨fun h => ?_, ?_, ?_⟩
      · have one := exhausted_set has s' h
        have same := calm.exhausted h
        rw [quiet, List.count_nil]
        change _ = p.exhausted h + 0
        omega
      · rw [counted, quiet, calm.counts]
        rfl
      · exact fun asked => absurd quiet asked

theorem heard_after {p₀ : Pool} {β : Type} (f : Outbox.Output → Option β) (fresh : Fresh p₀)
    (run : Trace step p₀ (ts ++ us) p) (x : Place) :
    atPlace x (heard f us) = said f (atPlace x (deeds us)) := by
  obtain ⟨v, before, -⟩ := run.split
  have all := (traced_of_trace fresh run).heard f x
  have first := (traced_of_trace fresh before).heard f x
  rw [heard_append, atPlace_append, deeds_append, atPlace_append, said_append, first] at all
  exact List.append_cancel_left all

theorem Asks.silent {p₀ : Pool} {vs : List Turn} (asks : Asks t x u) (fresh : Fresh p₀)
    (run : Trace step p₀ (us ++ t :: vs) p) :
    atPlace x (connects (t :: vs)) = [] ∧ atPlace x (invoked (t :: vs)) = [] := by
  have traced := traced_of_trace fresh run
  have turns : atPlace x (deeds (t :: vs)) = u :: atPlace x (deeds vs) := by
    rw [← List.singleton_append, deeds_append, deeds_single, asks.deed, atPlace_append]
    simp
  obtain ⟨o, has⟩ : ∃ o, p.outboxAt? x = some o := by
    cases has : p.outboxAt? x with
    | some o => exact ⟨o, rfl⟩
    | none =>
      have absent := traced.absent x has
      rw [deeds_append, atPlace_append, turns] at absent
      simp at absent
  obtain ⟨addr, run'⟩ := traced.runs x o has
  rw [deeds_append, atPlace_append, turns] at run'
  have tells : false ∈ Outbox.endings [u] := by simp [Outbox.endings, asks.told]
  obtain ⟨-, unconnected, unsent⟩ := Outbox.silent_of_mem run' tells
  rw [connects, invoked, heard_after _ fresh run, heard_after _ fresh run, turns]
  exact ⟨unconnected, unsent⟩

theorem tally_of_trace {p₀ : Pool} (fresh : Fresh p₀) (run : Trace step p₀ ts p) :
    (∀ h, (ended ts).count (h, .timedOut) = p.exhausted h) ∧ timeouts ts = (ended ts).length := by
  induction run with
  | refl =>
    refine ⟨fun h => (List.sum_eq_zero_iff_forall_eq_nat.2 fun n mem => ?_).symm, rfl⟩
    obtain ⟨s, has, rfl⟩ := List.mem_map.1 mem
    obtain ⟨k, has⟩ := List.mem_iff_getElem?.1 has
    rw [fresh.shard has]
    rfl
  | @tail ts v w clock a out before last ih =>
    obtain ⟨counts, counted⟩ := ih
    have tallied := tallied_of_step (sound_of_trace fresh before) (traced_of_trace fresh before) last
    have now : ended (ts ++ [⟨clock, v, a, out⟩]) = ended ts ++ out.filterMap Output.ended? := by
      simp [ended]
    refine ⟨fun h => ?_, ?_⟩
    · rw [now, List.count_append, counts, tallied.exhausted]
    · rw [now, List.length_append, ← counted, ← tallied.counted]
      simp [timeouts]

theorem goes_on_of_ended (has : p.shards[k]? = some s) (at_ : s.stage = .escalating h left)
    (clock : Nat) (result : Except ManagerFailure Unit) :
    ∃ out, step clock p (.move k (.ended result)) =
      some ({ p with shards := p.shards.set k { s with stage := .ready (.pass left) } }, out) ∧
        out.filterMap Output.ended? = [] := by
  cases result with
  | ok =>
    refine ⟨[], ?_, rfl⟩
    simp [step, move, within, has, Shard.step, Shard.move, at_]
  | error e =>
    refine ⟨[.shard k (.log (Shard.endFailedEvent h e))], ?_, rfl⟩
    simp [step, move, within, has, Shard.step, Shard.move, at_]

theorem proceeds_of_pass {p₀ : Pool} (fresh : Fresh p₀) (run : Trace step p₀ ts p)
    (has : p.shards[k]? = some s) (at_ : s.stage = .ready (.pass left)) (clock : Nat) :
    (step clock p (.move k .proceed)).isSome = true := by
  obtain ⟨-, run'⟩ := shard_of_fresh fresh run has
  have taken := Shard.proceeds_of_reaches (Shard.reaches_of_trace run') p.policy clock at_
  obtain ⟨⟨s', out⟩, taken⟩ := Option.isSome_iff_exists.1 taken
  simp [step, move, within, has, taken]

/-- Of a started pool, with whatever callers, workers, drivers and the manager do in any order: for
every session the requests to end it because of a timeout are as many as its outboxes that used up
their retries, and so are the timeouts that are counted. A turn that asks for an end asks for one, with
that status, and is the turn at which the last attempt of the session's live outbox failed; this outbox
connects and sends no more. Whatever the manager answers, the worker goes on with its pass, can always
do so, and leaves out no outbox of it. -/
theorem ends_each_exhausted_session_once {settings : Settings} {registry : Registry} {runtime : Bool}
    {p₀ : Pool} {out₀ : List Output} (started : start settings registry runtime = .ok (p₀, out₀))
    (run : Trace step p₀ ts p) :
    (∀ h, (ended ts).count (h, .timedOut) = p.exhausted h) ∧
    timeouts ts = (ended ts).length ∧
    (∀ us t vs, ts = us ++ t :: vs → ended [t] ≠ [] → ∃ x u, Asks t x u ∧
      atPlace x (connects (t :: vs)) = [] ∧ atPlace x (invoked (t :: vs)) = []) ∧
    (∀ k s h left, p.shards[k]? = some s → s.stage = .escalating h left →
      (∀ clock result, ∃ out, step clock p (.move k (.ended result)) =
        some ({ p with shards := p.shards.set k { s with stage := .ready (.pass left) } }, out) ∧
          out.filterMap Output.ended? = []) ∧
      ∀ us p' s', Trace step p us p' → p'.shards[k]? = some s' →
        left <+: Shard.flushes (turnsOf k us) ++ s'.stage.unflushed) ∧
    ∀ k s left, p.shards[k]? = some s → s.stage = .ready (.pass left) →
      ∀ clock, (step clock p (.move k .proceed)).isSome = true := by
  have fresh := start_fresh started
  obtain ⟨counts, counted⟩ := tally_of_trace fresh run
  refine ⟨counts, counted, ?_, ?_, fun k s left has at_ => proceeds_of_pass fresh run has at_⟩
  · intro us t vs eq asked
    subst eq
    obtain ⟨v, before, last, -⟩ := run.middle
    have sound := sound_of_trace fresh before
    have tallied := tallied_of_step sound (traced_of_trace fresh before) last
    obtain ⟨x, u, asks⟩ := tallied.asked (by simpa [ended] using asked)
    exact ⟨x, u, asks, asks.silent fresh run⟩
  · intro k s h left has at_
    refine ⟨goes_on_of_ended has at_, fun us p' s' later has' => ?_⟩
    obtain ⟨s₁, -, has₁, run'⟩ := shard_of_trace later has
    obtain rfl := Option.some_inj.1 (has₁.symm.trans has')
    have flushed := Shard.flushes_of_trace run'
    rw [at_] at flushed
    exact flushed

def strictSettings : Settings := { sampleSettings with retry.maxRetries := 0 }

def strictPool : Pool := { samplePool with policy := strictSettings.retry.policy }

theorem strictPool_started : start strictSettings sampleRegistry true =
    .ok (strictPool, [.log (startedEvent strictSettings)]) :=
  rfl

/-- The driver of the first session is not reached, and the manager does not take the request. -/
def unheard : List (Nat × Action) :=
  [(0, .move 0 .start), (1, .notify (.deadNode Outbox.sampleSession "a")),
    (2, .notify (.deadNode otherSession "b")), (3, .move 0 .wake), (4, .move 0 (.survey [0, 1])),
    (5, .move 0 .proceed), (6, .move 0 (.answer (.connected (.error .closed)))),
    (7, .move 0 (.ended (.error ⟨"no answer"⟩))), (8, .move 0 .proceed),
    (9, .move 0 (.answer (.connected (.ok ())))), (10, .move 0 (.answer (.invoked (.ok ()))))]

theorem ends_each_exhausted_session_once_unheard : ∃ ts p, Trace step strictPool ts p ∧
    ended ts = [(Outbox.sampleSession, .timedOut)] ∧ p.exhausted Outbox.sampleSession = 1 ∧
    delivered ts = [((0, 1), .deadNode otherSession "b")] := by
  have seen : ((play step strictPool unheard).map fun r => (ended r.1, delivered r.1)) =
      some ([(Outbox.sampleSession, .timedOut)], [((0, 1), .deadNode otherSession "b")]) := by
    decide +kernel
  obtain ⟨⟨ts, p⟩, played, eq⟩ := Option.map_eq_some_iff.1 seen
  obtain ⟨ended_eq, delivered_eq⟩ := Prod.mk.inj eq
  have run := trace_of_play played
  have counts := (ends_each_exhausted_session_once strictPool_started run).1 Outbox.sampleSession
  have one : (ended ts).count (Outbox.sampleSession, .timedOut) = 1 := by
    rw [show ended ts = _ from ended_eq]
    exact List.count_singleton_self
  exact ⟨ts, p, run, ended_eq, counts.symm.trans one, delivered_eq⟩

end SessionCourier.Pool
