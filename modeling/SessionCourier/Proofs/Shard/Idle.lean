import SessionCourier.Proofs.Shard.Pass
import SessionCourier.Proofs.Shard.Wake

set_option autoImplicit false

namespace SessionCourier.Shard

variable {p : Policy} {clock id index : Nat} {s₀ s s' : Shard} {out : List Output} {o : Outbox}
  {m : Move} {ts us vs : List Turn} {order left : List Nat}

/-- The worker goes on while the clock stands still: answers come at once, nobody else acts, and
nobody tells it to stop. -/
structure Works (p : Policy) (clock : Nat) (s : Shard) (us : List Turn) (s' : Shard) : Prop where
  run : Trace (step p) s us s'
  alone : ∀ t ∈ us, t.clock = clock ∧ ∃ m, t.action = .move m ∧ m ≠ .stop

/-- The worker closes and flushes all that it has to, from one wait to another. -/
structure WholePass (p : Policy) (clock : Nat) (s : Shard) (us : List Turn) (s' : Shard) : Prop
    extends Works p clock s us s' where
  moved : us ≠ []
  begins : ∃ since handed, s.stage = .parked since handed
  ends : ∃ since handed, s'.stage = .parked since handed

namespace Works

theorem single (taken : step p clock s (.move m) = some (s', out)) (goes : m ≠ .stop) :
    Works p clock s [⟨clock, s, .move m, out⟩] s' :=
  ⟨.single taken, List.forall_mem_singleton.2 ⟨rfl, m, rfl, goes⟩⟩

theorem append {u : Shard} (h : Works p clock s us u) (h' : Works p clock u vs s') :
    Works p clock s (us ++ vs) s' :=
  ⟨h.run.append h'.run, List.forall_mem_append.2 ⟨h.alone, h'.alone⟩⟩

theorem of_play {actions : List (Nat × Action)} (h : play (step p) s actions = some (us, s'))
    (alone : ∀ x ∈ actions, x.1 = clock ∧ ∃ m, x.2 = .move m ∧ m ≠ .stop) :
    Works p clock s us s' :=
  ⟨trace_of_play h, fun _ mem => alone _ (turns_of_play h ▸ List.mem_map_of_mem mem)⟩

end Works

/-- At this moment there is nothing to do but with outboxes that the worker still comes to. -/
structure Served (clock : Nat) (s : Shard) : Prop where
  deletions : s.deletions = []
  outboxes : ∀ id o, s.outbox? id = some o → s.stage.Covers id ∨ o.Idle clock

theorem Change.served_of_parked {since : Nat} {handed : Bool}
    (at_ : s.stage = .parked since handed) (change : Change p clock s (.move m) s' out) :
    Served clock s' := by
  cases change with
  | wakes | polls | stops => exact ⟨rfl, fun _ _ _ => .inl trivial⟩
  | starts at' | surveys at' | sweeps at' | parks at' | skips at' | halts at' | ends at' =>
    cases at_.symm.trans at'
  | works job =>
    cases job with
    | drain at' | pass at' | finalDrain at' | finalClose at' | answer at' =>
      cases at_.symm.trans at'

theorem Served.step (served : Served clock s) (sound : Sound s)
    (positive : ∀ failures, 0 < p.delay failures) (change : Change p clock s (.move m) s' out) :
    Served clock s' := by
  have stays {id : Nat} {o : Outbox} (has : s.outbox? id = some o)
      (goes : s.stage.Covers id → s'.stage.Covers id) : s'.stage.Covers id ∨ o.Idle clock :=
    (served.outboxes id o has).imp_left goes
  cases change with
  | wakes | polls | stops => exact ⟨rfl, fun _ _ _ => .inl trivial⟩
  | sweeps | skips | halts => exact ⟨served.deletions, fun _ _ _ => .inl trivial⟩
  | starts at_ => exact ⟨served.deletions, fun _ _ has => stays has (by simp [at_, Stage.Covers])⟩
  | parks at_ =>
    exact ⟨served.deletions, fun _ _ has => stays has (by simp [at_, Stage.Covers, Phase.Covers])⟩
  | ends at_ => exact ⟨served.deletions, fun _ _ has => stays has (by rw [at_]; exact id)⟩
  | surveys _ perm =>
    exact ⟨served.deletions, fun _ _ has => (sound.surveys perm has).imp_right (.nothing ∘ .inl)⟩
  | works job has taken settles =>
    refine ⟨job.keeps.2.1.trans served.deletions, fun j v has' => ?_⟩
    rcases job.comes sound has taken settles has' with covers | ⟨-, rfl, leaves⟩ | ⟨was, goes⟩
    · exact .inl covers
    · exact .inr (leaves.idle positive)
    · exact stays was goes

theorem WholePass.served (pass : WholePass p clock s₀ us s)
    (run : Trace (Shard.step p) (create index) ts s₀)
    (positive : ∀ failures, 0 < p.delay failures) : Served clock s := by
  obtain ⟨since, handed, at_⟩ := pass.begins
  obtain ⟨⟨works, alone⟩, moved, -, -⟩ := pass
  induction works with
  | refl => exact absurd rfl moved
  | @tail us u v clock' a out before last ih =>
    obtain ⟨rfl, m, rfl, -⟩ := alone _ (List.mem_append_right _ List.mem_cons_self)
    by_cases first : us = []
    · subst first
      obtain rfl := before.eq_of_nil
      exact (step_change last).served_of_parked at_
    · have served := ih first fun t mem => alone t (List.mem_append_left _ mem)
      exact served.step (sound_of_trace (run.append before)) positive (step_change last)

/-- The worker waits, and at this moment there is nothing to do. -/
structure AtRest (clock : Nat) (s : Shard) : Prop where
  waits : ∃ since handed, s.stage = .parked since handed
  deletions : s.deletions = []
  idle : ∀ id o, s.outbox? id = some o → o.Idle clock ∧ o.holder = none ∧ o.waiting = []

theorem WholePass.atRest (pass : WholePass p clock s₀ us s)
    (run : Trace (Shard.step p) (create index) ts s₀)
    (positive : ∀ failures, 0 < p.delay failures) : AtRest clock s := by
  have served := pass.served run positive
  have sound := sound_of_trace (run.append pass.run)
  obtain ⟨since, handed, at_⟩ := pass.ends
  refine ⟨⟨_, _, at_⟩, served.deletions, fun j o has => ⟨?_, ?_, sound.alone j o has⟩⟩
  · exact (served.outboxes j o has).resolve_left (by rw [at_]; exact id)
  · exact sound.free has (by simp [at_])

theorem outboxes_set_self (has : s.outbox? id = some o) : s.outboxes.set id o = s.outboxes := by
  obtain ⟨lt, rfl⟩ := List.getElem?_eq_some_iff.1 has
  exact List.set_getElem_self lt

/-- The worker waits or is in a pass, and has nothing to close. -/
def Stage.isFlushing : Stage → Bool
  | .parked .. | .ready (.drain []) | .ready (.pass _) => true
  | _ => false

/-- The worker may be elsewhere, but nothing else is different. -/
inductive Unchanged (s : Shard) : Shard → Prop where
  | moved {permit : Bool} {stage : Stage} (flushing : stage.isFlushing = true) :
      Unchanged s { s with permit := permit, stage := stage }

namespace AtRest

theorem flush (rest : AtRest clock s) (p : Policy) (has : s.outbox? id = some o) :
    Outbox.step p clock o (.call task (.flush clock)) = some (o, [.flushed task true]) := by
  obtain ⟨idle, free, alone⟩ := rest.idle id o has
  exact idle.flush free alone

theorem begin (rest : AtRest clock s) (permit permit' : Bool) (stage : Stage) :
    Shard.begin { s with permit := permit, stage := stage } .drain permit' =
      { s with permit := permit', stage := .ready (.drain []) } := by
  simp [Shard.begin, rest.deletions]

theorem step (rest : AtRest clock s₀) (same : Unchanged s₀ s)
    (change : Change p clock s (.move m) s' out) (goes : m ≠ .stop) :
    Unchanged s₀ s' ∧ ∀ x ∈ out, ∃ id, x = .outbox id (.flushed task true) := by
  cases same with
  | @moved permit stage flushing =>
    cases change with
    | stops => exact absurd rfl goes
    | wakes | polls =>
      rw [rest.begin]
      exact ⟨.moved rfl, List.forall_mem_nil _⟩
    | surveys | parks => exact ⟨.moved rfl, List.forall_mem_nil _⟩
    | starts at_ | sweeps at_ | skips at_ | halts at_ | ends at_ =>
      obtain rfl : stage = _ := at_
      cases flushing
    | works job has taken settles =>
      cases job with
      | drain at_ | finalDrain at_ | finalClose at_ | answer at_ =>
        obtain rfl : stage = _ := at_
        cases flushing
      | pass =>
        cases (rest.flush p has).symm.trans taken
        cases settles with
        | waits on => cases on
        | escalates dead => cases dead
        | goesOn =>
          rw [outboxes_set_self has]
          exact ⟨.moved rfl, fun x mem => ⟨_, List.mem_singleton.1 mem⟩⟩

theorem works (rest : AtRest clock s₀) (works : Works p clock s₀ vs s) :
    Unchanged s₀ s ∧ ∀ t ∈ vs, ∀ x ∈ t.outputs, ∃ id, x = .outbox id (.flushed task true) := by
  obtain ⟨run, alone⟩ := works
  induction run with
  | refl =>
    obtain ⟨since, handed, at_⟩ := rest.waits
    exact ⟨.moved (by rw [at_]; rfl), List.forall_mem_nil _⟩
  | tail before last ih =>
    obtain ⟨same, silent⟩ := ih fun t mem => alone t (List.mem_append_left _ mem)
    obtain ⟨rfl, m, rfl, goes⟩ := alone _ (List.mem_append_right _ List.mem_cons_self)
    obtain ⟨same', silent'⟩ := rest.step same (step_change last) goes
    exact ⟨same', List.forall_mem_append.2 ⟨silent, List.forall_mem_singleton.2 silent'⟩⟩

theorem step_proceed (rest : AtRest clock s) (p : Policy) (permit : Bool)
    (has : s.outbox? id = some o) :
    Shard.step p clock { s with permit := permit, stage := .ready (.pass (id :: left)) }
        (.move .proceed) =
      some ({ s with permit := permit, stage := .ready (.pass left) },
        [.outbox id (.flushed task true)]) := by
  have there : s.outboxes[id]? = some o := has
  simp [Shard.step, move, proceed, take, outbox?, there, rest.flush p has, settle, over?, saying,
    outboxes_set_self has]

theorem exists_flushes (rest : AtRest clock s) (p : Policy) (permit : Bool)
    (valid : ∀ id ∈ left, id < s.outboxes.length) :
    ∃ vs, Works p clock { s with permit := permit, stage := .ready (.pass left) } vs
      { s with permit := false, stage := .parked clock permit } := by
  induction left with
  | nil => exact ⟨_, .single (m := .proceed) rfl (by simp)⟩
  | cons id left ih =>
    obtain ⟨vs, others⟩ := ih fun j mem => valid j (List.mem_cons_of_mem id mem)
    have has : s.outbox? id = some _ := List.getElem?_eq_getElem (valid id List.mem_cons_self)
    exact ⟨_, (Works.single (rest.step_proceed p permit has) (by simp)).append others⟩

theorem exists_pass (rest : AtRest clock s) (p : Policy)
    (valid : ∀ id ∈ s.live.map (·.2), id < s.outboxes.length)
    (perm : order.Perm (s.live.map (·.2))) :
    ∃ vs s', WholePass p clock s vs s' ∧ ∃ t ∈ vs, t.action = .move (.survey order) := by
  obtain ⟨since, handed, at_⟩ := rest.waits
  have polled : Shard.step p clock s (.move .poll) =
      some ({ s with permit := s.permit || handed, stage := .ready (.drain []) }, []) := by
    simp [Shard.step, move, at_, Shard.begin, rest.deletions]
  have surveyed := step_survey
    (s := { s with permit := s.permit || handed, stage := .ready (.drain []) }) p clock rfl perm
  obtain ⟨vs, flushes⟩ :=
    rest.exists_flushes p (s.permit || handed) fun id mem => valid id (perm.mem_iff.1 mem)
  have works := (Works.single polled (by simp)).append
    ((Works.single surveyed (by simp)).append flushes)
  exact ⟨_, _, ⟨works, List.cons_ne_nil _ _, ⟨since, handed, at_⟩, clock, _, rfl⟩,
    _, List.mem_cons_of_mem _ List.mem_cons_self, rfl⟩

end AtRest

/-- Let every delay be positive, and let a pass end during which the clock stood still and nobody but
the worker did anything. Then the worker can make another one at the same moment, in each order.
Whatever it does in it, it says no more than that there was nothing to flush, and nothing changes but
where the worker is and which wake-ups it has. -/
theorem next_pass_does_nothing (positive : ∀ failures, 0 < p.delay failures)
    (run : Trace (step p) (create index) ts s₀) (pass : WholePass p clock s₀ us s) :
    (∀ order, order.Perm (s.live.map (·.2)) →
      ∃ vs s', WholePass p clock s vs s' ∧ ∃ t ∈ vs, t.action = .move (.survey order)) ∧
    ∀ vs s', Works p clock s vs s' →
      (∀ t ∈ vs, ∀ x ∈ t.outputs, ∃ id, x = .outbox id (.flushed task true)) ∧
      s' = { s with permit := s'.permit, stage := s'.stage } := by
  have rest := pass.atRest run positive
  have sound := sound_of_trace (run.append pass.run)
  refine ⟨fun order perm => rest.exists_pass p (fun id mem => ?_) perm, fun vs s' works => ?_⟩
  · obtain ⟨⟨h, id⟩, live, rfl⟩ := List.mem_map.1 mem
    exact sound.valid h id live
  · obtain ⟨same, silent⟩ := rest.works works
    refine ⟨silent, ?_⟩
    cases same
    rfl

/-- No link opens to the first driver, and the second one takes its notice. -/
def oneBacksOff : List (Nat × Action) :=
  [(4, .move .wake), (4, .move (.survey [0, 1])), (4, .move .proceed),
    (4, .move (.answer (.connected (.error .closed)))), (4, .move .proceed),
    (4, .move (.answer (.connected (.ok ())))), (4, .move (.answer (.invoked (.ok ())))),
    (4, .move .proceed)]

/-- The second session had woken the worker twice. -/
def stillWoken : Shard where
  index := 0
  outboxes := [{ Outbox.sampleOutbox with
      queue := [Outbox.sampleNotice "a"], failures := 1, nextAttempt := some 104 },
    { Outbox.create nextSession ⟨"driver", 7001⟩ with link := some 0, opened := 1 }]
  live := [(Outbox.sampleSession, 0), (nextSession, 1)]
  deletions := []
  permit := false
  stage := .parked 4 true

theorem next_pass_does_nothing_backing_off : ∃ ts s₀ us vs s',
    Trace (step Outbox.samplePolicy) (create 0) ts s₀ ∧
    WholePass Outbox.samplePolicy 4 s₀ us stillWoken ∧
    WholePass Outbox.samplePolicy 4 stillWoken vs s' ∧
    (∃ t ∈ vs, t.action = .move (.survey [1, 0])) ∧
    (∀ t ∈ vs, ∀ x ∈ t.outputs, ∃ id, x = .outbox id (.flushed task true)) ∧
    s'.outboxes = stillWoken.outboxes ∧ s'.live = stillWoken.live ∧ s'.deletions = [] := by
  have waits : (play (step Outbox.samplePolicy) (create 0) (twoSessions.take 3)).map (·.2) =
      some { bothWaiting with stage := .parked 0 true } := rfl
  have works : (play (step Outbox.samplePolicy) { bothWaiting with stage := .parked 0 true }
      oneBacksOff).map (·.2) = some stillWoken := rfl
  obtain ⟨⟨ts, s₀⟩, played, rfl⟩ := Option.map_eq_some_iff.1 waits
  obtain ⟨⟨us, s⟩, played', rfl⟩ := Option.map_eq_some_iff.1 works
  have run := trace_of_play played
  have pass : WholePass Outbox.samplePolicy 4 { bothWaiting with stage := .parked 0 true } us
      stillWoken := by
    refine ⟨.of_play played' (by simp [oneBacksOff]), ?_, ⟨0, true, rfl⟩, ⟨4, true, rfl⟩⟩
    rintro rfl
    exact List.cons_ne_nil _ _ (turns_of_play played').symm
  obtain ⟨again, nothing⟩ := next_pass_does_nothing (fun _ => Nat.zero_lt_succ 99) run pass
  obtain ⟨vs, s', pass', order⟩ := again [1, 0] (by decide)
  obtain ⟨silent, same⟩ := nothing vs s' pass'.toWorks
  refine ⟨ts, _, us, vs, s', run, pass, pass', order, silent, ?_⟩
  rw [same]
  exact ⟨rfl, rfl, rfl⟩

end SessionCourier.Shard
