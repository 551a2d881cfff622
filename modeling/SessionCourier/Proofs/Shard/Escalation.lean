import SessionCourier.Proofs.Outbox.Retries
import SessionCourier.Proofs.Shard.Deeds
import SessionCourier.Proofs.Shard.History
import SessionCourier.Proofs.Shard.Sound

set_option autoImplicit false

namespace SessionCourier.Shard

variable {p : Policy} {clock id : Nat} {s s' : Shard} {a : Action} {out : List Output}
  {o o' : Outbox} {h : Handle} {phase : Phase} {ts : List Turn}

def Output.ended? : Output → Option (Handle × Status)
  | .endSession h status => some (h, status)
  | _ => none

/-- How many outboxes of a session have used up their retries. -/
def exhausted (s : Shard) (h : Handle) : Nat :=
  s.outboxes.countP fun o => decide (o.handle = h) && o.exhausted

theorem countP_set {α : Type} (f : α → Bool) {l : List α} {i : Nat} {x : α} (has : l[i]? = some x)
    (y : α) : (l.set i y).countP f + (f x).toNat = l.countP f + (f y).toNat := by
  obtain ⟨lt, rfl⟩ := List.getElem?_eq_some_iff.1 has
  have counted : f l[i] = true → 0 < l.countP f := fun yes =>
    List.countP_pos_iff.2 ⟨_, List.getElem_mem lt, yes⟩
  rw [List.countP_set lt]
  cases fx : f l[i] with
  | true =>
    have pos := counted fx
    cases f y <;> simp <;> omega
  | false => cases f y <;> simp

theorem exhausted_set (has : s.outbox? id = some o) (handle : o'.handle = o.handle) (h : Handle) :
    (s.outboxes.set id o').countP (fun o => decide (o.handle = h) && o.exhausted) +
      (decide (o.handle = h) && o.exhausted).toNat =
    s.exhausted h + (decide (o.handle = h) && o'.exhausted).toNat := by
  rw [← handle, exhausted]
  have one := countP_set (fun o : Outbox => decide (o.handle = h) && o.exhausted) has o'
  rw [← handle] at one
  exact one

theorem ended_of_outbox (said : List Outbox.Output) (id : Nat) :
    (said.map (Output.outbox id)).filterMap Output.ended? = [] := by
  rw [List.filterMap_map]
  exact List.filterMap_eq_nil_iff.2 fun _ _ => rfl

theorem happenings_of_outbox (said : List Outbox.Output) (id : Nat) :
    (said.map (Output.outbox id)).filterMap Output.happening? =
      said.filterMap Outbox.Output.happening? := by
  rw [List.filterMap_map]
  rfl

def timeouts (out : List Output) : Nat := (out.filterMap Output.happening?).count .timedOut

theorem uncounted_of_goes {task now : Nat} {holder : Option (Nat × Outbox.Stage)}
    {said : List Outbox.Output} (g : o.Goes clock task now holder said) :
    said.filterMap Outbox.Output.happening? = [] := by
  cases g <;> rfl

theorem uncounted_of_enters {task : Nat} {job : Outbox.Job} {said : List Outbox.Output}
    (e : o.Enters clock task job o' said) : said.filterMap Outbox.Output.happening? = [] := by
  cases e with
  | flushes _ g => exact uncounted_of_goes g
  | waits | shuts | releases => rfl

theorem uncounted {b : Outbox.Action} {said : List Outbox.Output}
    (change : Outbox.Change p clock o b o' said) :
    (said.filterMap Outbox.Output.happening?).count .timedOut = 0 := by
  cases change with
  | calls _ _ _ e => rw [uncounted_of_enters e]; rfl
  | resumes _ _ e => rw [uncounted_of_enters e]; rfl
  | unreached _ fails => cases fails <;> rfl
  | dropped _ fails => cases fails <;> rfl
  | delivered _ g =>
    rw [List.filterMap_append, uncounted_of_goes g]
    split <;> rfl
  | accepts | refuses | detaches | skips | repeats | queues | connected | rejected | closes => rfl

/-- A flush used up the retries of an outbox, and the worker asks for the end of its session. -/
structure Escalates (p : Policy) (clock : Nat) (s : Shard) (a : Action) (s' : Shard)
    (out : List Output) (id : Nat) (o : Outbox) (b : Outbox.Action) (task : Nat) (o' : Outbox)
    (said : List Outbox.Output) : Prop where
  deed : s.deed? clock a = some ⟨id, o, b⟩
  has : s.outbox? id = some o
  failing : o.failing? b = some task
  fit : o.exhausted = false
  exhausts : Outbox.Exhausts p o task o' said
  outboxes : s'.outboxes = s.outboxes.set id o'
  spoke : out.filterMap Output.outbox? = said.map (id, ·)
  asks : out.filterMap Output.ended? = [(o.handle, .timedOut)]
  counts : timeouts out = 1

/-- The worker asks for nothing, and no outbox has used up its retries. -/
structure Calm (s s' : Shard) (out : List Output) : Prop where
  asks : out.filterMap Output.ended? = []
  counts : timeouts out = 0
  exhausted : ∀ h, s'.exhausted h = s.exhausted h

theorem Escalates.exhausted {b : Outbox.Action} {task : Nat} {said : List Outbox.Output}
    (escalates : Escalates p clock s a s' out id o b task o' said) (h : Handle) :
    s'.exhausted h = s.exhausted h + (decide (o.handle = h)).toNat := by
  have one := exhausted_set escalates.has escalates.exhausts.handle h
  rw [← escalates.outboxes, escalates.fit, escalates.exhausts.spent.exhausted, Bool.and_false,
    Bool.and_true] at one
  exact one

theorem calm_of_step {b : Outbox.Action} {said : List Outbox.Output} (has : s.outbox? id = some o)
    (taken : Outbox.step p clock o b = some (o', said)) (lasts : o'.exhausted = o.exhausted)
    (outboxes : s'.outboxes = s.outboxes.set id o') : Calm s s' (said.map (.outbox id)) where
  asks := ended_of_outbox said id
  counts := by
    rw [timeouts, happenings_of_outbox]
    exact uncounted (Outbox.step_change taken)
  exhausted h := by
    have one := exhausted_set has (Outbox.step_change taken).handle h
    rw [← outboxes, lasts] at one
    exact Nat.add_right_cancel one

theorem calm_of_same (outboxes : s'.outboxes = s.outboxes)
    (asks : out.filterMap Output.ended? = []) (counts : timeouts out = 0) : Calm s s' out where
  asks := asks
  counts := counts
  exhausted h := by rw [exhausted, exhausted, outboxes]

theorem enqueue_step (p : Policy) (clock : Nat) (o : Outbox) (n : Notice) :
    Outbox.step p clock o (.enqueue n) = some (o.enqueue n) :=
  rfl

theorem enqueue_lasts (o : Outbox) (n : Notice) : (o.enqueue n).1.exhausted = o.exhausted := by
  rw [Outbox.enqueue_eq]

theorem calm_of_create (p : Policy) (clock : Nat) {addr : Address} {n : Notice}
    (outboxes : s'.outboxes = s.outboxes ++ [((Outbox.create n.handle addr).enqueue n).1]) :
    Calm s s' (.log (s.createdEvent n.handle addr) ::
      ((Outbox.create n.handle addr).enqueue n).2.map (.outbox s.outboxes.length)) where
  asks := ended_of_outbox _ _
  counts := by
    rw [timeouts, List.filterMap_cons_none rfl, happenings_of_outbox]
    exact uncounted (Outbox.step_change (enqueue_step p clock (.create n.handle addr) n))
  exhausted h := by
    have fit : ((Outbox.create n.handle addr).enqueue n).1.exhausted = false := enqueue_lasts _ n
    rw [exhausted, exhausted, outboxes, List.countP_append]
    simp [fit]

theorem Job.pass_of_failing {m : Move} {s₁ : Shard} {b : Outbox.Action} {task : Nat}
    (sound : Sound s) (job : s.Job clock m s₁ id phase b) (has : s.outbox? id = some o)
    (failing : o.failing? b = some task) : ∃ left, phase = .pass left := by
  cases job with
  | drain | finalDrain | finalClose | pass => cases failing
  | answer at_ =>
    have attempting := Outbox.attempting_of_failing failing
    obtain ⟨held, holds, open_⟩ := (Option.any_eq_true _ _).1 attempting
    obtain ⟨phase', at', fits⟩ := sound.busy id o has held holds
    obtain ⟨-, rfl⟩ := Stage.busy.inj (at_.symm.trans at')
    cases phase with
    | pass left => exact ⟨left, rfl⟩
    | drain | finalDrain | finalClose => simp [fits, Phase.closes] at open_

theorem Change.asks (change : Change p clock s a s' out) (sound : Sound s)
    (known : ∀ id o, s.outbox? id = some o → o.exhausted = true → o.Spent) :
    (∃ id o b task o' said, Escalates p clock s a s' out id o b task o' said) ∨ Calm s s' out := by
  cases change with
  | @adds addr n id o _ has =>
    exact .inr (calm_of_step has (enqueue_step p clock o n) (enqueue_lasts o n) (wakeUp_outboxes _))
  | creates => exact .inr (calm_of_create p clock (wakeUp_outboxes _))
  | @offers id n o has =>
    exact .inr (calm_of_step has (enqueue_step p clock o n) (enqueue_lasts o n) rfl)
  | @deletes h id known =>
    obtain ⟨o, has⟩ : ∃ o, s.outbox? id = some o :=
      ⟨_, List.getElem?_eq_getElem (sound.valid h id (mem_of_liveId known))⟩
    refine .inr (calm_of_step has (rfl : Outbox.step p clock o .detach = some (o.detach, [])) rfl ?_)
    rw [wakeUp_outboxes]
    exact detach_eq has
  | @works m s₁ id phase b o o' said stage after job has taken settles =>
    rcases (Outbox.step_change taken).verdict with ⟨task, failing, exhausts⟩ | ⟨lasts, -⟩
    · refine .inl ⟨id, o, b, task, o', said, ?_⟩
      obtain ⟨left, rfl⟩ := job.pass_of_failing sound has failing
      have dead := exhausts.verdict
      -- In a pass the worker goes on only after a flush that ended well.
      cases settles with
      | waits on =>
        rw [on] at dead
        cases dead
      | goesOn ended fine =>
        rw [ended] at dead
        rcases fine with alive | other
        · rw [alive] at dead
          cases dead
        · exact absurd rfl (other left)
      | escalates =>
        exact {
          deed := by rw [deed?, job.job]; exact deedAt_eq_some.2 ⟨rfl, rfl, has⟩
          has := has
          failing := failing
          fit := Outbox.fit_of_failing (known id o has) failing
          exhausts := exhausts
          outboxes := rfl
          spoke := by
            rw [List.filterMap_append, outputs_of_outbox]
            exact List.append_nil _
          asks := by
            rw [List.filterMap_append, ended_of_outbox, exhausts.handle]
            rfl
          counts := by
            rw [timeouts, List.filterMap_append, List.count_append, happenings_of_outbox,
              uncounted (Outbox.step_change taken)]
            rfl }
    · refine .inr ?_
      cases settles with
      | escalates dead => exact absurd dead lasts.verdict
      | waits | goesOn =>
        rw [List.append_nil]
        exact calm_of_step has taken lasts.exhausted rfl
  | @ends h left result =>
    cases result with
    | ok => exact .inr (calm_of_same rfl rfl rfl)
    | error => exact .inr (calm_of_same rfl rfl rfl)
  | misses | starts | wakes | polls | stops | surveys | sweeps | parks | skips | halts =>
    exact .inr (calm_of_same rfl rfl rfl)

/-- The outboxes that the worker has not begun to flush in its pass. -/
def Stage.unflushed : Stage → List Nat
  | .ready (.pass left) | .busy _ (.pass left) | .escalating _ left => left
  | _ => []

def isFlush : Outbox.Action → Bool
  | .call _ (.flush _) => true
  | _ => false

def flush? (s : Shard) (clock : Nat) (a : Action) : Option Nat :=
  s.deed? clock a >>= fun d => if isFlush d.action then some d.id else none

/-- The outboxes that the worker began to flush, one after the other. -/
def flushes (ts : List Turn) : List Nat := ts.filterMap fun t => t.before.flush? t.clock t.action

theorem wakeUp_unflushed (s : Shard) : s.wakeUp.stage.unflushed = s.stage.unflushed := by
  unfold wakeUp
  split
  · rename_i at_
    rw [at_]
    rfl
  · rfl

theorem flush_of_job {m : Move} {s₁ : Shard} {b : Outbox.Action}
    (job : s.Job clock m s₁ id phase b) (has : s.outbox? id = some o) :
    s.flush? clock (.move m) = if isFlush b then some id else none := by
  have deed : s.deed? clock (.move m) = some ⟨id, o, b⟩ := by
    rw [deed?, job.job]
    exact deedAt_eq_some.2 ⟨rfl, rfl, has⟩
  rw [flush?, deed]
  rfl

theorem Settles.unflushed {said : List Outbox.Output} {stage : Stage} {after : List Output}
    (settles : Settles id h said phase stage after) :
    stage.unflushed = (Stage.ready phase).unflushed := by
  cases settles with
  | waits => cases phase <;> rfl
  | escalates | goesOn => rfl

/-- No outbox is left out of a pass: what is left to flush is flushed before anything else. -/
theorem Change.flushes (change : Change p clock s a s' out) :
    s.stage.unflushed <+: (s.flush? clock a).toList ++ s'.stage.unflushed := by
  cases change with
  | @adds addr n id o known has =>
    have none_flushed : s.flush? clock (.add addr n) = none := by
      simp [flush?, deed?, known, deedAt?, has, isFlush]
    rw [none_flushed, wakeUp_unflushed]
    exact List.prefix_rfl
  | @creates addr n new =>
    have none_flushed : s.flush? clock (.add addr n) = none := by
      simp [flush?, deed?, new, isFlush]
    rw [none_flushed, wakeUp_unflushed]
    exact List.prefix_rfl
  | @offers id n o has =>
    have none_flushed : s.flush? clock (.offer id n) = none := by
      simp [flush?, deed?, deedAt?, has, isFlush]
    rw [none_flushed]
    exact List.prefix_rfl
  | @misses h unknown =>
    have none_flushed : s.flush? clock (.delete h) = none := by simp [flush?, deed?, unknown]
    rw [none_flushed]
    exact List.prefix_rfl
  | @deletes h id known =>
    have none_flushed : s.flush? clock (.delete h) = none := by
      cases has : s.outbox? id <;> simp [flush?, deed?, known, deedAt?, has, isFlush]
    rw [none_flushed, wakeUp_unflushed]
    exact List.prefix_rfl
  | starts at_ | wakes at_ | polls at_ | stops at_ | surveys at_ | sweeps at_ | parks at_
  | skips at_ | halts at_ =>
    rw [at_]
    exact List.nil_prefix
  | @ends h left result at_ =>
    have none_flushed : s.flush? clock (.move (.ended result)) = none := rfl
    rw [none_flushed, at_]
    exact List.prefix_rfl
  | @works m s₁ id phase b o o' said stage after job has _ settles =>
    change _ <+: _ ++ stage.unflushed
    rw [flush_of_job job has, settles.unflushed]
    cases job with
    | pass at_ =>
      rw [at_]
      exact List.prefix_rfl
    | drain at_ | finalDrain at_ | finalClose at_ =>
      rw [at_]
      exact List.nil_prefix
    | answer at_ =>
      rw [at_]
      cases phase <;> exact List.prefix_rfl

theorem flushes_of_trace {s₀ : Shard} (run : Trace (step p) s₀ ts s) :
    s₀.stage.unflushed <+: flushes ts ++ s.stage.unflushed := by
  induction run with
  | refl => exact List.prefix_rfl
  | @tail ts u v clock a out before last ih =>
    -- A step begins to flush the next of what is left, or leaves all of it.
    have one := (step_change last).flushes
    have more : flushes ts ++ u.stage.unflushed <+:
        flushes ts ++ ((u.flush? clock a).toList ++ v.stage.unflushed) :=
      List.prefix_append_right_inj _ |>.2 one
    have now : flushes (ts ++ [⟨clock, u, a, out⟩]) = flushes ts ++ (u.flush? clock a).toList := by
      cases flushed : u.flush? clock a <;> simp [flushes, flushed]
    rw [now, List.append_assoc]
    exact ih.trans more

/-- The outboxes that are left of a pass are there. -/
def Reaches (s : Shard) : Prop := ∀ id ∈ s.stage.unflushed, id < s.outboxes.length

theorem Change.unflushed (change : Change p clock s a s' out) :
    s'.stage.unflushed ⊆ s.stage.unflushed ∨ s'.stage.unflushed ⊆ s.live.map (·.2) := by
  cases change with
  | adds | creates | deletes =>
    rw [wakeUp_unflushed]
    exact .inl (List.Subset.refl _)
  | offers | misses => exact .inl (List.Subset.refl _)
  | surveys _ perm => exact .inr perm.subset
  | starts | wakes | polls | stops | sweeps | parks | skips | halts =>
    exact .inl (List.nil_subset _)
  | ends at_ =>
    rw [at_]
    exact .inl (List.Subset.refl _)
  | @works m s₁ id phase b o o' said stage after job _ _ settles =>
    change stage.unflushed ⊆ _ ∨ stage.unflushed ⊆ _
    rw [settles.unflushed]
    cases job with
    | pass at_ =>
      rw [at_]
      exact .inl (List.subset_cons_self _ _)
    | answer at_ =>
      rw [at_]
      cases phase <;> exact .inl (List.Subset.refl _)
    | drain | finalDrain | finalClose => exact .inl (List.nil_subset _)

theorem Change.length_le (change : Change p clock s a s' out) :
    s.outboxes.length ≤ s'.outboxes.length := by
  have acts := change.acts
  generalize s.deed? clock a = d at acts
  generalize s'.outboxes = os at acts ⊢
  generalize out.filterMap Output.outbox? = said at acts
  cases acts with
  | rests => exact Nat.le_refl _
  | acts => rw [List.length_set]
  | begins =>
    rw [List.length_append]
    exact Nat.le_add_right _ _

theorem Reaches.step (reaches : Reaches s) (sound : Sound s) (change : Change p clock s a s' out) :
    Reaches s' := by
  intro id mem
  refine Nat.lt_of_lt_of_le ?_ change.length_le
  rcases change.unflushed with old | live
  · exact reaches id (old mem)
  · obtain ⟨⟨h, j⟩, live, rfl⟩ := List.mem_map.1 (live mem)
    exact sound.valid h j live

theorem reaches_of_trace {index : Nat} (run : Trace (step p) (create index) ts s) : Reaches s := by
  have both : Sound s ∧ Reaches s := by
    refine run.invariant (P := fun s => Sound s ∧ Reaches s) ?_ ⟨sound_create index, nofun⟩
    intro clock u a v out last both
    exact ⟨both.1.step (step_change last), both.2.step both.1 (step_change last)⟩
  exact both.2

theorem proceeds_of_reaches {left : List Nat} (reaches : Reaches s) (p : Policy) (clock : Nat)
    (at_ : s.stage = .ready (.pass left)) : (step p clock s (.move .proceed)).isSome = true := by
  cases left with
  | nil => simp [step, move, at_, proceed]
  | cons id left =>
    have lt := reaches id (by rw [at_]; exact List.mem_cons_self)
    have has : s.outbox? id = some s.outboxes[id] := List.getElem?_eq_getElem lt
    simp [step, move, at_, proceed, take, has, Outbox.step]

end SessionCourier.Shard
