import SessionCourier.Proofs.Outbox.Accounts
import SessionCourier.Proofs.Outbox.Waits
import SessionCourier.Proofs.Shard.Ending
import SessionCourier.Proofs.Shard.History

set_option autoImplicit false

/-!
# No wake-up is lost

A worker that waits without a wake-up has nothing to do: whoever adds a notice or deletes a session
leaves a wake-up behind, and it is taken only by a worker that comes to all outboxes before it waits
again. What it leaves in a queue then waits for the moment of the next attempt.
-/

namespace SessionCourier.Shard

variable {p : Policy} {clock id : Nat} {s s' : Shard} {a : Action} {out : List Output}
  {o o' : Outbox} {h : Handle} {phase : Phase} {ts us : List Turn}

def Stage.isHanded : Stage → Bool
  | .parked _ handed => handed
  | _ => false

/-- A wake-up is kept, or was handed to the worker. -/
def isWoken (s : Shard) : Bool := s.permit || s.stage.isHanded

def Phase.Covers (id : Nat) : Phase → Prop
  | .pass left => id ∈ left
  | .drain _ | .finalDrain _ | .finalClose _ => True

/-- The worker comes to the end of its work with an outbox before it waits again, or it has left its
loop. -/
def Stage.Covers (id : Nat) : Stage → Prop
  | .ready phase => phase.Covers id
  | .busy j phase => j = id ∨ phase.Covers id
  | .escalating _ left => id ∈ left
  | .stopped => True
  | .unstarted | .parked .. => False

/-- What is left to do will be done without another wake-up. -/
structure Alert (s : Shard) : Prop where
  deletions : s.deletions ≠ [] → s.isWoken = true
  queues : ∀ id o, s.outbox? id = some o → o.queue ≠ [] → o.nextAttempt = none →
    s.isWoken = true ∨ s.stage.Covers id

theorem alert_create (index : Nat) : Alert (create index) where
  deletions left := absurd rfl left
  queues id o has := by simp [create, outbox?] at has

theorem Settles.handed {said : List Outbox.Output} {stage : Stage} {after : List Output}
    (settles : Settles id h said phase stage after) : stage.isHanded = false := by
  cases settles <;> rfl

theorem Settles.covers {said : List Outbox.Output} {stage : Stage} {after : List Output} {j : Nat}
    (settles : Settles id h said phase stage after) (covers : phase.Covers j) :
    stage.Covers j := by
  cases settles with
  | waits => exact .inr covers
  | escalates | goesOn => exact covers

theorem Job.flushes {m : Move} {s₁ : Shard} {b : Outbox.Action} {left : List Nat}
    {said : List Outbox.Output} (job : s.Job clock m s₁ id (.pass left) b) (sound : Sound s)
    (has : s.outbox? id = some o) (taken : Outbox.step p clock o b = some (o', said)) :
    (∃ task, b = .call task (.flush clock)) ∨ o.isAttempting = true := by
  cases job with
  | pass => exact .inl ⟨_, rfl⟩
  | answer at_ =>
    cases holds : o.holder with
    | none => simp [Outbox.step, holds] at taken
    | some held =>
      obtain ⟨phase', at', fits⟩ := sound.busy id o has held holds
      obtain ⟨-, rfl⟩ := Stage.busy.inj (at_.symm.trans at')
      refine .inr ?_
      rw [Outbox.isAttempting, holds, Option.any_some, fits]
      rfl

theorem Job.keeps {m : Move} {s₁ : Shard} {b : Outbox.Action}
    (job : s.Job clock m s₁ id phase b) :
    s₁.permit = s.permit ∧ s₁.deletions = s.deletions ∧ s.stage.isHanded = false := by
  cases job with
  | drain at_ | pass at_ | finalDrain at_ | finalClose at_ | answer at_ =>
    rw [at_]
    exact ⟨rfl, rfl, rfl⟩

theorem Job.covers {m : Move} {s₁ : Shard} {b : Outbox.Action} {j : Nat}
    (job : s.Job clock m s₁ id phase b) (other : j ≠ id) (covers : s.stage.Covers j) :
    phase.Covers j := by
  cases job with
  | drain | finalDrain | finalClose => trivial
  | pass at_ =>
    rw [at_] at covers
    exact (List.mem_cons.1 covers).resolve_left other
  | answer at_ =>
    rw [at_] at covers
    exact covers.resolve_left (Ne.symm other)

/-- After a step of a job, the worker still comes to an outbox, or the outbox is the one of the job and
its flush is over, or it is as it was and the worker comes to it if it was to come to it before. -/
theorem Job.comes {m : Move} {s₁ : Shard} {b : Outbox.Action} {said : List Outbox.Output}
    {stage : Stage} {after : List Output} (job : s.Job clock m s₁ id phase b) (sound : Sound s)
    (has : s.outbox? id = some o) (taken : Outbox.step p clock o b = some (o', said))
    (settles : Settles id h said phase stage after) {j : Nat} {v : Outbox}
    (has' : (s.outboxes.set id o')[j]? = some v) :
    stage.Covers j ∨ (j = id ∧ v = o' ∧ o.Leaves p clock o') ∨
      (s.outbox? j = some v ∧ (s.stage.Covers j → stage.Covers j)) := by
  rw [outbox_set has] at has'
  by_cases same : j = id
  · subst same
    rw [if_pos rfl] at has'
    cases phase with
    | drain | finalDrain | finalClose => exact .inl (settles.covers trivial)
    | pass left =>
      have leaves := (Outbox.step_change taken).leaves_of_over (job.flushes sound has taken)
      cases settles with
      | waits => exact .inl (.inl rfl)
      | escalates ended | goesOn ended =>
        exact .inr (.inl ⟨rfl, (Option.some_inj.1 has').symm, leaves (by rw [ended]; nofun)⟩)
  · rw [if_neg same] at has'
    exact .inr (.inr ⟨has', fun covers => settles.covers (job.covers same covers)⟩)

theorem Sound.surveys (sound : Sound s) {order : List Nat} (perm : order.Perm (s.live.map (·.2)))
    (has : s.outbox? id = some o) : id ∈ order ∨ o.detached = true := by
  cases gone : o.detached with
  | true => exact .inr rfl
  | false =>
    have live := (sound.live id o has o.handle).2 ⟨rfl, gone⟩
    exact .inl (perm.mem_iff.2 (List.mem_map_of_mem live))

theorem isWoken_wakeUp (s : Shard) : s.wakeUp.isWoken = true := by
  unfold wakeUp
  split
  · rename_i at_
    exact Bool.or_true _
  · rfl

namespace Alert

theorem wakeUp (s : Shard) : Alert s.wakeUp :=
  ⟨fun _ => isWoken_wakeUp s, fun _ _ _ _ _ => .inl (isWoken_wakeUp s)⟩

theorem park (alert : Alert s) (clock : Nat) (unhanded : s.stage.isHanded = false)
    (free : ∀ id, ¬s.stage.Covers id) : Alert (s.park clock) := by
  have woken : (s.park clock).isWoken = s.isWoken := by
    rw [isWoken, isWoken, unhanded, Bool.or_false]
    exact Bool.false_or _
  refine ⟨fun left => woken.trans (alert.deletions left), fun id o has waits ready => .inl ?_⟩
  exact woken.trans ((alert.queues id o has waits ready).resolve_right (free id))

theorem moves (alert : Alert s) (permit : s'.permit = s.permit)
    (deletions : s'.deletions = s.deletions) (unhanded : s.stage.isHanded = false)
    (unhanded' : s'.stage.isHanded = false)
    (covers : ∀ id o, s'.outbox? id = some o → o.queue ≠ [] → o.nextAttempt = none →
      s'.stage.Covers id ∨ s.outbox? id = some o ∧ (s.stage.Covers id → s'.stage.Covers id)) :
    Alert s' := by
  have woken : s'.isWoken = s.isWoken := by rw [isWoken, isWoken, permit, unhanded, unhanded']
  refine ⟨fun left => ?_, fun id o has waits ready => ?_⟩
  · rw [woken]
    exact alert.deletions (deletions ▸ left)
  · rw [woken]
    rcases covers id o has waits ready with now | ⟨was, stays⟩
    · exact .inr now
    · exact (alert.queues id o was waits ready).imp_right stays

theorem works {m : Move} {s₁ : Shard} {b : Outbox.Action} {said : List Outbox.Output}
    {stage : Stage} {after : List Output} (alert : Alert s) (sound : Sound s)
    (job : s.Job clock m s₁ id phase b) (has : s.outbox? id = some o)
    (taken : Outbox.step p clock o b = some (o', said))
    (settles : Settles id h said phase stage after)
    (empty : o'.accepts = false → o'.queue = []) :
    Alert { s₁ with outboxes := s.outboxes.set id o', stage := stage } := by
  obtain ⟨permit, deletions, unhanded⟩ := job.keeps
  refine alert.moves permit deletions unhanded settles.handed fun j o₁ has' waits ready => ?_
  rcases job.comes sound has taken settles has' with covers | ⟨rfl, rfl, leaves⟩ | was
  · exact .inl covers
  · -- A flush that is over leaves nothing behind but what waits for its next attempt.
    have shut closed := (sound.shut j o has closed).1
    rcases leaves.waits shut empty with nothing | later
    · exact absurd nothing waits
    · exact absurd ready later
  · exact .inr was

theorem step (alert : Alert s) (sound : Sound s) (change : Change p clock s a s' out)
    (empty : ∀ id o, s'.outbox? id = some o → o.accepts = false → o.queue = [])
    (added : ∀ id n, a ≠ .offer id n) : Alert s' := by
  cases change with
  | adds | creates | deletes => exact wakeUp _
  | offers => exact absurd rfl (added _ _)
  | misses => exact alert
  | starts at_ =>
    exact alert.park clock (by rw [at_]; rfl) fun id covers => by rw [at_] at covers; exact covers
  | parks at_ =>
    exact alert.park clock (by rw [at_]; rfl) fun id => by rw [at_]; exact List.not_mem_nil
  | wakes | polls | stops => exact ⟨fun left => absurd rfl left, fun _ _ _ _ _ => .inr trivial⟩
  | surveys at_ perm =>
    -- The pass takes up every live outbox, and the others are empty.
    refine alert.moves rfl rfl (by rw [at_]; rfl) rfl fun id o has waits _ => .inl ?_
    refine (sound.surveys perm has).resolve_right fun gone => waits (empty id o has ?_)
    simp [Outbox.accepts, gone]
  | sweeps at_ | skips at_ | halts at_ =>
    exact alert.moves rfl rfl (by rw [at_]; rfl) rfl fun _ _ _ _ _ => .inl trivial
  | ends at_ =>
    refine alert.moves rfl rfl (by rw [at_]; rfl) rfl fun id o has _ _ => .inr ⟨has, ?_⟩
    rw [at_]
    exact fun covers => covers
  | @works m s₁ id phase b o o' said stage after job has taken settles =>
    refine alert.works sound job has taken settles (empty id o' ?_)
    exact (outbox_set has o' id).trans (if_pos rfl)

end Alert

/-- Notices reach outboxes only by being added to the shard. -/
def OnlyAdded (ts : List Turn) : Prop := ∀ t ∈ ts, ∀ id n, t.action ≠ .offer id n

theorem empty_of_trace {index : Nat} (run : Trace (step p) (create index) ts s)
    (has : s.outbox? id = some o) (gone : o.accepts = false) : o.queue = [] := by
  obtain ⟨addr, run'⟩ := trace_of_outbox run has
  exact (Outbox.ordered_of_trace run').empty gone

theorem alert_of_trace {index : Nat} (run : Trace (step p) (create index) ts s)
    (added : OnlyAdded ts) : Alert s := by
  induction run with
  | refl => exact alert_create index
  | @tail ts u v clock a out before last ih =>
    have alert := ih fun t mem => added t (List.mem_append_left _ mem)
    refine alert.step (sound_of_trace before) (step_change last) ?_ ?_
    · exact fun id o has => empty_of_trace (before.tail last) has
    · exact added _ (List.mem_append_right _ (List.mem_singleton_self _))

def deletes? (t : Turn) : Option Nat :=
  match t.action with
  | .delete h => t.before.liveId? h
  | _ => none

def deleted (ts : List Turn) : List Nat := ts.filterMap deletes?

@[simp] theorem deleted_append : deleted (ts ++ us) = deleted ts ++ deleted us :=
  List.filterMap_append

@[simp] theorem deleted_single (t : Turn) : deleted [t] = (deletes? t).toList := by
  cases h : deletes? t <;> simp [deleted, h]

/-- An outbox is live until it is deleted, or until the worker closes it at the end. -/
structure Kept (ids : List Nat) (s : Shard) : Prop where
  away : ∀ id ∈ ids, id < s.outboxes.length ∧ ∀ h, (h, id) ∉ s.live
  rest : s.stage.isFinal = false → ∀ id < s.outboxes.length, id ∈ ids ∨ ∃ h, (h, id) ∈ s.live

theorem kept_create (index : Nat) : Kept [] (create index) where
  away _ mem := by cases mem
  rest _ id lt := absurd lt (Nat.not_lt_zero id)

theorem Change.stays_final (change : Change p clock s a s' out) (final : s.stage.isFinal = true) :
    s'.stage.isFinal = true := by
  cases change with
  | adds | creates | deletes =>
    rw [(wakeUp_final _).1]
    exact final
  | offers | misses => exact final
  | starts at_ | wakes at_ | polls at_ | stops at_ | surveys at_ | parks at_ | ends at_ =>
    rw [at_] at final
    cases final
  | sweeps | skips | halts => rfl
  | works job _ _ settles =>
    refine settles.final.1.trans ?_
    cases job with
    | drain at_ | pass at_ =>
      rw [at_] at final
      cases final
    | finalDrain | finalClose => rfl
    | answer at_ =>
      rw [at_] at final
      exact final

theorem Job.live {m : Move} {s₁ : Shard} {b : Outbox.Action} (job : s.Job clock m s₁ id phase b) :
    (∀ x ∈ s₁.live, x ∈ s.live) ∧ (phase.isFinal = false → s₁.live = s.live) := by
  cases job with
  | drain | pass | finalDrain | answer => exact ⟨fun _ mem => mem, fun _ => rfl⟩
  | finalClose => exact ⟨fun _ mem => (List.mem_filter.1 mem).1, nofun⟩

namespace Kept

variable {ids : List Nat}

theorem same (kept : Kept ids s) (length : s'.outboxes.length = s.outboxes.length)
    (live : ∀ x ∈ s'.live, x ∈ s.live)
    (rest : s'.stage.isFinal = false → s.stage.isFinal = false ∧ s'.live = s.live) :
    Kept (ids ++ []) s' := by
  rw [List.append_nil]
  refine ⟨fun id mem => ?_, fun early id lt => ?_⟩
  · obtain ⟨lt, gone⟩ := kept.away id mem
    exact ⟨length ▸ lt, fun h mem => gone h (live _ mem)⟩
  · obtain ⟨before, all⟩ := rest early
    rw [all]
    exact kept.rest before id (length ▸ lt)

theorem create (kept : Kept ids s) {os : List Outbox} (length : os.length = s.outboxes.length + 1) :
    Kept (ids ++ [])
      { s with outboxes := os, live := s.live ++ [(h, s.outboxes.length)] }.wakeUp := by
  rw [List.append_nil]
  refine ⟨fun id mem => ?_, fun early id lt => ?_⟩
  · obtain ⟨lt, gone⟩ := kept.away id mem
    rw [wakeUp_outboxes, wakeUp_live, length]
    refine ⟨Nat.lt_succ_of_lt lt, fun h' mem => ?_⟩
    rcases List.mem_append.1 mem with old | new
    · exact gone h' old
    · obtain rfl := (Prod.mk.inj (List.mem_singleton.1 new)).2
      exact Nat.lt_irrefl _ lt
  · rw [wakeUp_outboxes, length] at lt
    rw [(wakeUp_final _).1] at early
    rw [wakeUp_live]
    rcases Nat.lt_succ_iff_lt_or_eq.1 lt with lt | rfl
    · refine (kept.rest early id lt).imp_right fun ⟨h', mem⟩ => ⟨h', ?_⟩
      exact List.mem_append_left _ mem
    · exact .inr ⟨h, List.mem_append_right _ (List.mem_singleton_self _)⟩

theorem delete (kept : Kept ids s) (sound : Sound s) (known : s.liveId? h = some id)
    {os : List Outbox} (length : os.length = s.outboxes.length) {doomed : List Nat} :
    Kept (ids ++ [id])
      { s with live := s.live.filter (·.1 ≠ h), outboxes := os, deletions := doomed }.wakeUp := by
  have lt := sound.valid h id (mem_of_liveId known)
  obtain ⟨-, -, -, others, own⟩ := sound.forget known (List.getElem?_eq_getElem lt)
  refine ⟨fun j mem => ?_, fun early j lt => ?_⟩
  · rw [wakeUp_outboxes, wakeUp_live, length]
    rcases List.mem_append.1 mem with old | new
    · obtain ⟨lt, gone⟩ := kept.away j old
      exact ⟨lt, fun h' mem => gone h' (List.mem_filter.1 mem).1⟩
    · obtain rfl := List.mem_singleton.1 new
      exact ⟨lt, own⟩
  · rw [wakeUp_outboxes, length] at lt
    rw [(wakeUp_final _).1] at early
    rw [wakeUp_live]
    by_cases same : j = id
    · exact .inl (List.mem_append_right _ (same ▸ List.mem_singleton_self _))
    · rcases kept.rest early j lt with old | ⟨h', mem⟩
      · exact .inl (List.mem_append_left _ old)
      · exact .inr ⟨h', (others h' j same).2 mem⟩

theorem step (kept : Kept ids s) (sound : Sound s) (change : Change p clock s a s' out) :
    Kept (ids ++ (deletes? ⟨clock, s, a, out⟩).toList) s' := by
  have back : s'.stage.isFinal = false → s.stage.isFinal = false := by
    intro early
    by_contra final
    rw [change.stays_final (by simpa using final)] at early
    cases early
  cases change with
  | adds =>
    refine kept.same ?_ ?_ fun early => ⟨back early, wakeUp_live _⟩
    · rw [wakeUp_outboxes, List.length_set]
    · rw [wakeUp_live]
      exact fun _ mem => mem
  | creates => exact kept.create List.length_append
  | offers => exact kept.same List.length_set (fun _ mem => mem) fun early => ⟨early, rfl⟩
  | @misses h unknown =>
    have nobody : deletes? ⟨clock, s, .delete h, []⟩ = none := unknown
    rw [nobody]
    exact kept.same rfl (fun _ mem => mem) fun early => ⟨early, rfl⟩
  | @deletes h id known =>
    have gone : deletes? ⟨clock, s, .delete h, []⟩ = some id := known
    rw [gone]
    exact kept.delete sound known (List.length_modify ..)
  | starts | wakes | polls | stops | surveys | sweeps | parks | skips | halts | ends =>
    exact kept.same rfl (fun _ mem => mem) fun early => ⟨back early, rfl⟩
  | works job _ _ settles =>
    obtain ⟨live, all⟩ := job.live
    refine kept.same List.length_set live fun early => ⟨back early, all ?_⟩
    exact settles.final.1.symm.trans early

end Kept

theorem kept_of_trace {index : Nat} (run : Trace (step p) (create index) ts s) :
    Kept (deleted ts) s := by
  induction run with
  | refl => exact kept_create index
  | tail before last ih =>
    rw [deleted_append, deleted_single]
    exact ih.step (sound_of_trace before) (step_change last)

section
variable {index since : Nat} {handed : Bool}

theorem closed_of_deleted (run : Trace (step p) (create index) ts s)
    (at_ : s.stage = .parked since handed) (drained : s.deletions = []) (mem : id ∈ deleted ts) :
    ∃ o, s.outbox? id = some o ∧ o.closed = true ∧ o.link = none ∧ o.holder = none := by
  have sound := sound_of_trace run
  obtain ⟨lt, away⟩ := (kept_of_trace run).away id mem
  have has : s.outbox? id = some s.outboxes[id] := List.getElem?_eq_getElem lt
  have gone : s.outboxes[id].detached = true := by
    by_contra live
    exact away _ ((sound.live id _ has _).2 ⟨rfl, by simpa using live⟩)
  have closed : s.outboxes[id].closed = true := by
    by_contra open_
    have doomed := (sound.doomed id _ has).2 ⟨gone, by simpa using open_⟩
    rw [Shard.doomed, drained, at_] at doomed
    cases doomed
  exact ⟨_, has, closed, (sound.shut id _ has closed).2.1, sound.free has (by simp [at_])⟩

/-- As long as notices come only by being added: when the worker waits without a wake-up, no deletion
is left, every outbox that was deleted is closed and holds no link, and what an outbox still has to
deliver waits for the moment of its next attempt. Of an outbox none of whose attempts failed, what was
accepted was delivered, up to what a deletion discarded. -/
theorem parked_only_when_done (run : Trace (step p) (create index) ts s) (added : OnlyAdded ts)
    (at_ : s.stage = .parked since false) (unwoken : s.permit = false) :
    s.deletions = [] ∧
    (∀ id ∈ deleted ts, ∃ o, s.outbox? id = some o ∧ o.closed = true ∧ o.link = none ∧
      o.holder = none) ∧
    (∀ id o, s.outbox? id = some o → o.queue ≠ [] → o.nextAttempt ≠ none) ∧
    ∀ id, (∀ u ∈ turnsOf id ts, Outbox.fails u.action = false) →
      Outbox.accepted (turnsOf id ts) =
        Outbox.delivered (turnsOf id ts) ++ Outbox.discarded (turnsOf id ts) ∧
      (Outbox.discarded (turnsOf id ts) ≠ [] → id ∈ deleted ts) := by
  have alert := alert_of_trace run added
  have asleep : s.isWoken ≠ true := by simp [isWoken, Stage.isHanded, unwoken, at_]
  have drained : s.deletions = [] := by
    by_contra left
    exact asleep (alert.deletions left)
  have waiting : ∀ id o, s.outbox? id = some o → o.queue ≠ [] → o.nextAttempt ≠ none := by
    intro id o has waits ready
    rcases alert.queues id o has waits ready with woken | covers
    · exact asleep woken
    · rw [at_] at covers
      exact covers
  refine ⟨drained, fun id => closed_of_deleted run at_ drained, waiting, fun id well => ?_⟩
  cases has : s.outbox? id with
  | none =>
    have lives := lives_of_trace run id
    rw [has] at lives
    rw [show turnsOf id ts = [] from lives]
    exact ⟨rfl, fun some_gone => absurd rfl some_gone⟩
  | some o =>
    obtain ⟨addr, run'⟩ := trace_of_outbox run has
    have untroubled := Outbox.untroubled_of_trace run' well
    obtain ⟨accounts, kept⟩ := Outbox.accepted_eq run'
    have nothing : o.queue = [] := by
      by_contra waits
      exact waiting id o has waits untroubled.ready
    rw [nothing, List.append_nil] at accounts
    refine ⟨accounts, fun some_gone => ?_⟩
    have gone : o.detached = true := by
      by_contra live
      exact some_gone (kept (by simp [Outbox.accepts, untroubled.fit, live]))
    -- While the worker is in its loop, only a deletion detaches an outbox.
    have early : s.stage.isFinal = false := by rw [at_]; rfl
    refine ((kept_of_trace run).rest early id (outbox_lt has)).resolve_right ?_
    rintro ⟨h, mem⟩
    have live := ((sound_of_trace run).live id o has h).1 mem
    rw [gone] at live
    cases live.2

end

/-- While its first notice is on the way, a session gets a second one and is deleted. -/
def cutShort : List (Nat × Action) :=
  [(0, .move .start), (1, .add ⟨"driver", 7000⟩ (Outbox.sampleNotice "a")), (2, .move .wake),
    (3, .move (.survey [0])), (4, .move .proceed), (5, .move (.answer (.connected (.ok ())))),
    (6, .add ⟨"driver", 7000⟩ (Outbox.sampleNotice "b")), (7, .delete Outbox.sampleSession),
    (8, .move (.answer (.invoked (.ok ())))), (9, .move .proceed), (10, .move .wake),
    (11, .move .proceed), (12, .move (.answer .released)), (13, .move (.survey [])),
    (14, .move .proceed)]

theorem parked_only_when_done_cutShort : ∃ ts s,
    Trace (step Outbox.samplePolicy) (create 0) ts s ∧ OnlyAdded ts ∧
    s.stage = .parked 14 false ∧ s.permit = false ∧ deleted ts = [0] ∧
    Outbox.delivered (turnsOf 0 ts) = [Outbox.sampleNotice "a"] ∧
    Outbox.discarded (turnsOf 0 ts) = [Outbox.sampleNotice "b"] ∧
    ∃ o, s.outbox? 0 = some o ∧ o.closed = true ∧ o.link = none ∧ o.holder = none := by
  have seen : ((play (step Outbox.samplePolicy) (create 0) cutShort).map fun r =>
      (r.2.stage, r.2.permit, deleted r.1, Outbox.delivered (turnsOf 0 r.1),
        Outbox.discarded (turnsOf 0 r.1))) = some (.parked 14 false, false, [0],
      [Outbox.sampleNotice "a"], [Outbox.sampleNotice "b"]) := by
    decide +kernel
  obtain ⟨⟨ts, s⟩, played, eq⟩ := Option.map_eq_some_iff.1 seen
  obtain ⟨at_, eq⟩ := Prod.mk.inj eq
  obtain ⟨unwoken, eq⟩ := Prod.mk.inj eq
  obtain ⟨deleted_eq, eq⟩ := Prod.mk.inj eq
  obtain ⟨delivered_eq, discarded_eq⟩ := Prod.mk.inj eq
  have run := trace_of_play played
  have added : OnlyAdded ts :=
    forall_of_play (P := fun a : Action => ∀ (id : Nat) (n : Notice), a ≠ .offer id n)
      (by simp [cutShort]) played
  have closed := (parked_only_when_done run added at_ unwoken).2.1 0
  rw [show deleted ts = [0] from deleted_eq] at closed
  exact ⟨ts, s, run, added, at_, unwoken, deleted_eq, delivered_eq, discarded_eq,
    closed (List.mem_singleton_self 0)⟩

end SessionCourier.Shard
