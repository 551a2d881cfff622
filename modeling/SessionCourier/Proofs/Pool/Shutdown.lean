import SessionCourier.Proofs.Outbox.Links
import SessionCourier.Proofs.Pool.Sound
import SessionCourier.Proofs.Shard.Ending

set_option autoImplicit false

namespace SessionCourier.Pool

variable {clock : Nat} {p p' : Pool} {a : Action} {out : List Output} {ts : List Turn} {t : Turn}
  {x : Place} {o : Outbox}

/-- The outbox of a session that is deleted while its worker closes outboxes already. -/
def late? (t : Turn) : Option Place := do
  let (k, b) ← t.before.errand? t.action
  let s ← t.before.shards[k]?
  let id ← s.late? b
  return (k, id)

def lateDeletions (ts : List Turn) : List Place := ts.filterMap late?

@[simp] theorem lateDeletions_append {us : List Turn} :
    lateDeletions (ts ++ us) = lateDeletions ts ++ lateDeletions us :=
  List.filterMap_append

@[simp] theorem lateDeletions_single : lateDeletions [t] = (late? t).toList := by
  cases h : late? t <;> simp [lateDeletions, h]

def openings (ts : List Turn) (x : Place) : Nat :=
  (deeds ts).countP fun d => decide (d.1 = x) && Outbox.opens d.2.action

theorem within_shutdown {k : Nat} {b : Shard.Action} (h : p.within clock k b = some (p', out)) :
    p'.shutdown = p.shutdown := by
  obtain ⟨s, s', said, -, -, rfl, -⟩ := within_cases h
  rfl

theorem shutdown_of_step (h : step clock p a = some (p', out)) :
    p'.shutdown = p.shutdown ∨ (p.shutdown = .running ∧ p'.shutdown = .stopping) ∨
      (p.shutdown = .stopping ∧ p'.shutdown = .stopped ∧ p'.shards = p.shards ∧
        ∀ s ∈ p.shards, s.stage = .stopped) := by
  cases a with
  | notify n =>
    rcases notify_cases h with ⟨-, rfl, -⟩ | ⟨addr, out₁, e, -, within, -⟩
    · exact .inl rfl
    · exact .inl (within_shutdown within)
  | delete h' =>
    obtain ⟨out₁, log, within, -⟩ := delete_cases h
    exact .inl (within_shutdown within)
  | register | unregister =>
    obtain ⟨rfl, -⟩ := Prod.mk.inj (Option.some_inj.1 h)
    exact .inl rfl
  | offer => exact .inl (within_shutdown h)
  | shutDown =>
    have eq : p.shutDown = (p', out) := Option.some_inj.1 h
    unfold shutDown at eq
    split at eq
    · rename_i running
      obtain ⟨rfl, -⟩ := Prod.mk.inj eq
      exact .inr (.inl ⟨running, rfl⟩)
    · obtain ⟨rfl, -⟩ := Prod.mk.inj eq
      exact .inl rfl
  | join =>
    simp only [step] at h
    split at h
    · rename_i all
      obtain ⟨rfl, -⟩ := Prod.mk.inj (Option.some_inj.1 h)
      exact .inr (.inr ⟨all.1, rfl, rfl, by simpa using all.2⟩)
    · cases h
  | move k m => exact .inl (within_shutdown (move_within h).1)

theorem cancelled_of_step (h : step clock p a = some (p', out)) (late : p.cancelled = true) :
    p'.cancelled = true := by
  rw [cancelled, decide_eq_true_eq] at late ⊢
  rcases shutdown_of_step h with eq | ⟨running, -⟩ | ⟨-, stopped, -⟩
  · rwa [eq]
  · exact absurd running late
  · rw [stopped]
    nofun

/-- How a pool stands to its end. -/
structure Ends (ts : List Turn) (p : Pool) : Prop where
  ending : ∀ (k : Nat) (s : Shard), p.shards[k]? = some s →
    Shard.Ending (atPlace k (lateDeletions ts)) s
  final : ∀ (k : Nat) (s : Shard), p.shards[k]? = some s → s.stage.isFinal = true →
    p.cancelled = true
  stopped : p.shutdown = .stopped → ∀ (k : Nat) (s : Shard), p.shards[k]? = some s →
    s.stage = .stopped

theorem ends_fresh (fresh : Fresh p) : Ends [] p where
  ending k s has := fresh.shard has ▸ Shard.ending_create k
  final k s has final := by
    rw [fresh.shard has] at final
    cases final
  stopped ended := by
    rw [fresh.running] at ended
    cases ended

theorem Ends.closed (ends : Ends ts p) {k : Nat} {s : Shard} {b : Shard.Action}
    (has : p.shards[k]? = some s) (errand : p.errand? a = some (k, b))
    (final : s.stage.isFinal = true) : ∀ addr n, b ≠ .add addr n := by
  rintro addr n rfl
  have open_ := (errand_of_add errand).2
  rw [ends.final k s has final] at open_
  cases open_

theorem shards_set {k j : Nat} {s s' s₁ : Shard} (has : p.shards[k]? = some s)
    (has' : (p.shards.set k s')[j]? = some s₁) :
    (j = k ∧ s₁ = s') ∨ (j ≠ k ∧ p.shards[j]? = some s₁) := by
  have lt := (List.getElem?_eq_some_iff.1 has).1
  rw [List.getElem?_set] at has'
  by_cases same : k = j
  · rw [if_pos same, if_pos (same ▸ lt)] at has'
    exact .inl ⟨same.symm, (Option.some_inj.1 has').symm⟩
  · rw [if_neg same] at has'
    exact .inr ⟨Ne.symm same, has'⟩

theorem Ends.rest (ends : Ends ts p) (sound : Sound p) {k : Nat} {s s' : Shard} {b : Shard.Action}
    {said : List Shard.Output} (has : p.shards[k]? = some s)
    (errand : p.errand? a = some (k, b)) (at_ : s.stage = .stopped)
    (taken : Shard.step p.policy clock s b = some (s', said)) :
    s' = s ∧ ∀ x ∈ said.filterMap Shard.Output.outbox?,
      (∃ n, x.2 = .refused n) ∨ ∃ e, x.2 = .log e := by
  have ending := ends.ending k s has
  have closed := ends.closed has errand (by rw [at_]; rfl)
  refine Shard.rest_of_stopped at_ (ending.empty at_) (fun id o has' => ?_)
    (Shard.step_change taken) closed
  exact (ending.closed (sound.shards k s has) at_ has').1

theorem Ends.step (ends : Ends ts p) (sound : Sound p) (h : step clock p a = some (p', out)) :
    Ends (ts ++ [⟨clock, p, a, out⟩]) p' := by
  have shutdown := shutdown_of_step h
  have cancelled := cancelled_of_step h
  cases step_change h with
  | rests idle _ shards =>
    have late : late? ⟨clock, p, a, out⟩ = none := by simp [late?, idle]
    refine ⟨fun k s has => ?_, fun k s has final => ?_, fun ended k s has => ?_⟩
    · rw [shards] at has
      simpa [late] using ends.ending k s has
    · rw [shards] at has
      exact cancelled (ends.final k s has final)
    · rw [shards] at has
      rcases shutdown with eq | ⟨-, stopping⟩ | ⟨-, -, -, all⟩
      · exact ends.stopped (eq ▸ ended) k s has
      · rw [ended] at stopping
        cases stopping
      · exact all s (List.mem_of_getElem? has)
  | @works k b s s' said _ errand has stops taken =>
    have change := Shard.step_change taken
    have late : late? ⟨clock, p, a, out⟩ = (s.late? b).map (k, ·) := by
      cases now : s.late? b <;> simp [late?, errand, has, now]
    refine ⟨fun j s₁ has' => ?_, fun j s₁ has' final => ?_, fun ended j s₁ has' => ?_⟩
    · rw [lateDeletions_append, lateDeletions_single, late, atPlace_append]
      rcases shards_set has has' with ⟨rfl, rfl⟩ | ⟨other, was⟩
      · have kept := (ends.ending j s has).step change (ends.closed has errand)
        cases now : s.late? b <;> simpa [now] using kept
      · cases s.late? b <;> simpa [Ne.symm other] using ends.ending j s₁ was
    · rcases shards_set has has' with ⟨rfl, rfl⟩ | ⟨-, was⟩
      · rcases Shard.final_of_change change final with before | stop
        · exact ends.final j s has before
        · exact stops stop
      · exact ends.final j s₁ was final
    · rcases shards_set has has' with ⟨rfl, rfl⟩ | ⟨-, was⟩
      · have at_ := ends.stopped ended j s has
        rw [(ends.rest sound has errand at_ taken).1]
        exact at_
      · exact ends.stopped ended j s₁ was

theorem ends_of_trace {p₀ : Pool} (fresh : Fresh p₀) (run : Trace step p₀ ts p) : Ends ts p := by
  induction run with
  | refl => exact ends_fresh fresh
  | tail before last ih => exact ih.step (sound_of_trace fresh before) last

theorem heard_nil_of_refusing {β : Type} {f : Outbox.Output → Option β} {us : List Turn}
    (refuses : ∀ n, f (.refused n) = none) (logs : ∀ e, f (.log e) = none)
    (spoke : ∀ x ∈ spoken us, (∃ n, x.2 = .refused n) ∨ ∃ e, x.2 = .log e) : heard f us = [] := by
  refine List.filterMap_eq_nil_iff.2 fun x mem => ?_
  rcases spoke x mem with ⟨n, eq⟩ | ⟨e, eq⟩
  · rw [eq, refuses]
    rfl
  · rw [eq, logs]
    rfl

theorem rest_of_trace {p₀ : Pool} {us : List Turn} (fresh : Fresh p₀) (run : Trace step p₀ ts p)
    (ended : p.shutdown = .stopped) (later : Trace step p us p') :
    p'.shards = p.shards ∧ p'.shutdown = .stopped ∧
      ∀ x ∈ spoken us, (∃ n, x.2 = .refused n) ∨ ∃ e, x.2 = .log e := by
  induction later with
  | refl => exact ⟨rfl, ended, fun x mem => by cases mem⟩
  | @tail us v w clock a out before last ih =>
    obtain ⟨same, stopped, spoke⟩ := ih
    have run := run.append before
    have ends := ends_of_trace fresh run
    have ended' : w.shutdown = .stopped := by
      rcases shutdown_of_step last with eq | ⟨running, -⟩ | ⟨stopping, -⟩
      · rw [eq, stopped]
      · rw [stopped] at running
        cases running
      · rw [stopped] at stopping
        cases stopping
    have tells : spoken (us ++ [⟨clock, v, a, out⟩]) =
        spoken us ++ out.filterMap Output.outbox? := by
      simp [spoken]
    rw [tells]
    cases step_change last with
    | rests _ _ shards silent =>
      rw [outputs_of_places, silent, List.filterMap_nil, List.append_nil]
      exact ⟨shards.trans same, ended', spoke⟩
    | @works k b s s' said _ errand has _ taken told =>
      have at_ := ends.stopped stopped k s has
      obtain ⟨rfl, refuses⟩ := ends.rest (sound_of_trace fresh run) has errand at_ taken
      refine ⟨?_, ended', fun x mem => ?_⟩
      · obtain ⟨lt, eq⟩ := List.getElem?_eq_some_iff.1 has
        rw [← same, ← eq]
        exact List.set_getElem_self lt
      · rcases List.mem_append.1 mem with mem | mem
        · exact spoke x mem
        · rw [outputs_of_works told rfl] at mem
          obtain ⟨y, said, rfl⟩ := List.mem_map.1 mem
          exact refuses y said

theorem late_lt {p₀ : Pool} (run : Trace step p₀ ts p) (mem : x ∈ lateDeletions ts) :
    x.1 < p.shards.length := by
  induction run with
  | refl => cases mem
  | @tail ts v w clock a out before last ih =>
    rw [(step_change last).length]
    rw [lateDeletions_append, lateDeletions_single, List.mem_append, Option.mem_toList] at mem
    rcases mem with mem | mem
    · exact ih mem
    · simp only [late?, Option.bind_eq_bind, Option.bind_eq_some_iff, Option.pure_def,
        Option.some.injEq] at mem
      obtain ⟨⟨k, b⟩, -, s, has, id, -, rfl⟩ := mem
      exact (List.getElem?_eq_some_iff.1 has).1

theorem outboxAt_of_late {p₀ : Pool} (fresh : Fresh p₀) (run : Trace step p₀ ts p)
    (ended : p.shutdown = .stopped) (mem : x ∈ lateDeletions ts) :
    ∃ o, p.outboxAt? x = some o := by
  obtain ⟨s, has⟩ : ∃ s, p.shards[x.1]? = some s :=
    ⟨_, List.getElem?_eq_getElem (late_lt run mem)⟩
  have ends := ends_of_trace fresh run
  have at_ := ends.stopped ended x.1 s has
  have doomed : x.2 ∈ s.doomed := by
    rw [Shard.doomed, (ends.ending x.1 s has).late (by rw [at_]; rfl)]
    exact List.mem_append_left _ (mem_atPlace.2 mem)
  have lt := ((sound_of_trace fresh run).shards x.1 s has).known x.2 doomed
  exact ⟨_, (outboxAt_of_shard has).trans (List.getElem?_eq_getElem lt)⟩

theorem openings_at (ts : List Turn) (x : Place) :
    openings ts x = Outbox.openings (atPlace x (deeds ts)) := by
  rw [openings, Outbox.openings]
  induction deeds ts with
  | nil => rfl
  | cons d rest ih =>
    rw [← List.singleton_append, List.countP_append, atPlace_append, List.countP_append, ih,
      atPlace_single]
    by_cases same : d.1 = x <;> simp [same, List.countP_cons]

theorem pending_of_empty (empty : ∀ s ∈ p.shards, s.live = []) : p.pending = 0 := by
  rw [pending]
  generalize p.shards = shards at empty
  induction shards with
  | nil => rfl
  | cons s rest ih =>
    have nothing : s.pending = 0 := by rw [Shard.pending, empty s List.mem_cons_self]; rfl
    rw [List.foldr_cons, nothing, ih fun s' mem => empty s' (List.mem_cons_of_mem s mem)]

/-- Of a started pool, once whoever shut it down has seen all workers stop: no session is live and
nothing waits. An outbox is closed, and holds no link, unless it was deleted too late. The links that
an outbox gave up, and then the one that it holds, are those that it opened, each once. Whatever comes
later changes no shard, and nothing is accepted, asked for or sent. -/
theorem shutdown_releases {settings : Settings} {registry : Registry} {runtime : Bool} {p₀ : Pool}
    {out₀ : List Output} (started : start settings registry runtime = .ok (p₀, out₀))
    (run : Trace step p₀ ts p) (ended : p.shutdown = .stopped) :
    (∀ s ∈ p.shards, s.live = []) ∧ p.pending = 0 ∧
    (∀ x o, p.outboxAt? x = some o →
      (o.closed = true ↔ x ∉ lateDeletions ts) ∧ (o.closed = true → o.link = none) ∧
      atPlace x (released ts) ++ o.link.toList = List.range (openings ts x)) ∧
    ((∀ x o, p.outboxAt? x = some o → o.closed = true) ↔ lateDeletions ts = []) ∧
    ∀ us p', Trace step p us p' → p'.shards = p.shards ∧ accepted us = [] ∧ connects us = [] ∧
      invoked us = [] := by
  have fresh := start_fresh started
  have sound := sound_of_trace fresh run
  have ends := ends_of_trace fresh run
  have traced := traced_of_trace fresh run
  have empty : ∀ s ∈ p.shards, s.live = [] := by
    intro s mem
    obtain ⟨k, has⟩ := List.mem_iff_getElem?.1 mem
    exact (ends.ending k s has).empty (ends.stopped ended k s has)
  have closed : ∀ x o, p.outboxAt? x = some o → (o.closed = true ↔ x ∉ lateDeletions ts) := by
    intro x o has
    obtain ⟨s, at_, has⟩ := shard_of_outboxAt has
    rw [((ends.ending _ s at_).closed (sound.shards _ s at_) (ends.stopped ended _ s at_) has).2,
      mem_atPlace]
  refine ⟨empty, ?_, fun x o has => ⟨closed x o has, fun shut => ?_, ?_⟩, ⟨fun all => ?_, ?_⟩, ?_⟩
  · exact pending_of_empty empty
  · obtain ⟨s, at_, has⟩ := shard_of_outboxAt has
    exact ((sound.shards _ s at_).shut _ o has shut).2.1
  · obtain ⟨addr, run'⟩ := traced.runs x o has
    have linked := Outbox.linked_of_trace run'
    rw [openings_at, linked.count, ← linked.all, released, traced.heard]
    rfl
  · refine List.eq_nil_iff_forall_not_mem.2 fun x mem => ?_
    obtain ⟨o, has⟩ := outboxAt_of_late fresh run ended mem
    exact (closed x o has).1 (all x o has) mem
  · intro none_late x o has
    rw [closed x o has, none_late]
    exact List.not_mem_nil
  · intro us p' later
    obtain ⟨same, -, spoke⟩ := rest_of_trace fresh run ended later
    exact ⟨same, heard_nil_of_refusing (fun _ => rfl) (fun _ => rfl) spoke,
      heard_nil_of_refusing (fun _ => rfl) (fun _ => rfl) spoke,
      heard_nil_of_refusing (fun _ => rfl) (fun _ => rfl) spoke⟩

/-- Of two sessions with open links, the second is deleted while the first one's outbox is closed at
the end. -/
def leftOver : List (Nat × Action) :=
  [(0, .move 0 .start), (1, .notify (.deadNode Outbox.sampleSession "a")),
    (2, .notify (.deadNode otherSession "b")), (3, .move 0 .wake), (4, .move 0 (.survey [0, 1])),
    (5, .move 0 .proceed), (6, .move 0 (.answer (.connected (.ok ())))),
    (7, .move 0 (.answer (.invoked (.ok ())))), (8, .move 0 .proceed),
    (9, .move 0 (.answer (.connected (.ok ())))), (10, .move 0 (.answer (.invoked (.ok ())))),
    (11, .move 0 .proceed), (12, .shutDown), (13, .move 0 .stop),
    (14, .move 0 (.sweep [Outbox.sampleSession, otherSession])), (15, .move 0 .proceed),
    (16, .delete otherSession), (17, .move 0 (.answer .released)), (18, .move 0 .proceed),
    (19, .move 0 .proceed), (20, .join)]

theorem shutdown_releases_leftOver : ∃ ts p, Trace step samplePool ts p ∧ p.shutdown = .stopped ∧
    p.pending = 0 ∧ lateDeletions ts = [(0, 1)] ∧
    ¬ ∀ x o, p.outboxAt? x = some o → o.closed = true := by
  have seen : ((play step samplePool leftOver).map fun r =>
      (r.2.shutdown, lateDeletions r.1)) = some (.stopped, [(0, 1)]) := by
    decide +kernel
  obtain ⟨⟨ts, p⟩, played, eq⟩ := Option.map_eq_some_iff.1 seen
  obtain ⟨ended, late⟩ := Prod.mk.inj eq
  have run := trace_of_play played
  obtain ⟨-, nothing, -, exactly, -⟩ := shutdown_releases samplePool_started run ended
  refine ⟨ts, p, run, ended, nothing, late, fun all => ?_⟩
  rw [exactly.1 all] at late
  cases late

/-- The pool has stopped, and a link is still open. -/
theorem link_left_open : ∃ ts p, Trace step samplePool ts p ∧ p.shutdown = .stopped ∧
    (p.outboxAt? (0, 1)).map (fun o => (o.closed, o.link)) = some (false, some 0) ∧
    openings ts (0, 1) = 1 ∧ atPlace (0, 1) (released ts) = [] := by
  have seen : ((play step samplePool leftOver).map fun r => (r.2.shutdown,
      (r.2.outboxAt? (0, 1)).map (fun o => (o.closed, o.link)), openings r.1 (0, 1),
      atPlace (0, 1) (released r.1))) = some (.stopped, some (false, some 0), 1, []) := by
    decide +kernel
  obtain ⟨⟨ts, p⟩, played, eq⟩ := Option.map_eq_some_iff.1 seen
  obtain ⟨ended, eq⟩ := Prod.mk.inj eq
  obtain ⟨left, eq⟩ := Prod.mk.inj eq
  obtain ⟨opened, unreleased⟩ := Prod.mk.inj eq
  exact ⟨ts, p, trace_of_play played, ended, left, opened, unreleased⟩

end SessionCourier.Pool
