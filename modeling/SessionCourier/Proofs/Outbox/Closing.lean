import SessionCourier.Proofs.Outbox.Links
import SessionCourier.Proofs.Outbox.Retries

set_option autoImplicit false

/-!
# Every link is closed once

A link that is given up is being released until the driver's end has answered. So an outbox holds a
link, or is releasing one, or neither, and only then it asks for a new one. Of all calls of `close`
the first does the work: it waits for the lock and releases the link that is held. When it is over
the outbox asks for nothing, sends nothing and releases nothing any more.
-/

namespace SessionCourier.Outbox

variable {p : Policy} {clock task now : Nat} {o o' : Outbox} {a : Action} {out : List Output}
  {holder : Option (Nat × Stage)} {ts us : List Turn} {job : Job}

def Stage.releasing? : Stage → Option Nat
  | .dropping _ link _ _ | .closing link => some link
  | .connecting .. | .invoking .. => none

/-- The link that was given up and is not closed yet. -/
def releasing? (o : Outbox) : Option Nat := o.holder.bind (·.2.releasing?)

def closes? (o : Outbox) : Action → Option Nat
  | .answer .released => o.releasing?
  | _ => none

def closings (ts : List Turn) : List Nat := ts.filterMap fun t => t.before.closes? t.action

@[simp] theorem closings_append : closings (ts ++ us) = closings ts ++ closings us :=
  List.filterMap_append

@[simp] theorem closings_single (t : Turn) :
    closings [t] = (t.before.closes? t.action).toList := by
  cases h : t.before.closes? t.action <;> simp [closings, h]

theorem Goes.released (h : o.Goes clock task now holder out) :
    out.filterMap Output.released? = [] ∧ holder.bind (·.2.releasing?) = none := by
  cases h <;> exact ⟨rfl, rfl⟩

theorem Enters.released (h : o.Enters clock task job o' out) (free : o.holder = none) :
    out.filterMap Output.released? = o'.releasing?.toList := by
  cases h with
  | flushes _ goes =>
    obtain ⟨silent, idle⟩ := goes.released
    rw [silent, releasing?, idle]
    rfl
  | shuts =>
    rw [releasing?, free]
    rfl
  | waits | releases => rfl

theorem Fails.released {head : Notice} {f : Failure} (h : o.Fails p clock task now head f o' out) :
    out.filterMap Output.released? = [] ∧ o'.releasing? = none := by
  cases h <;> exact ⟨rfl, rfl⟩

theorem Change.released (h : Change p clock o a o' out) :
    o.releasing?.toList ++ out.filterMap Output.released? =
      (o.closes? a).toList ++ o'.releasing?.toList := by
  cases h with
  | accepts | refuses | detaches | skips | repeats => exact List.append_nil _
  | queues asked =>
    rw [releasing?, releasing?, ← asked.same_holder]
    exact List.append_nil _
  | calls asked free _ enters =>
    rw [enters.released (asked.same_holder.trans free), releasing?, free]
    rfl
  | resumes free _ enters =>
    rw [enters.released free, releasing?, free]
    rfl
  | unreached held fails =>
    obtain ⟨silent, idle⟩ := fails.released
    rw [silent, idle, releasing?, held]
    rfl
  | delivered held goes =>
    obtain ⟨silent, idle⟩ := goes.released
    rw [filterMap_after (fun _ => rfl) (fun _ => rfl), silent, releasing?, releasing?, held, idle]
    rfl
  | dropped held fails =>
    obtain ⟨silent, idle⟩ := fails.released
    rw [silent, idle, closes?, releasing?, held]
    rfl
  | connected held | rejected held =>
    rw [releasing?, held]
    rfl
  | closes held =>
    rw [closes?, releasing?, held]
    rfl

theorem released_of_trace {h : Handle} {addr : Address}
    (run : Trace (step p) (create h addr) ts o) :
    released ts = closings ts ++ o.releasing?.toList := by
  induction run with
  | refl => rfl
  | @tail ts u v clock a out _ last ih =>
    have now := (step_change last).released
    rw [released, said_append, said_cons, said_nil, List.append_nil, ← released, ih,
      List.append_assoc, now, closings_append, closings_single, List.append_assoc]

def Output.shut? : Output → Option Nat
  | .shut task => some task
  | _ => none

def closeCall? : Action → Option Nat
  | .call task .close => some task
  | _ => none

def closeCalls (ts : List Turn) : List Nat := ts.filterMap fun t => closeCall? t.action

def shuts (ts : List Turn) : List Nat := said Output.shut? ts

@[simp] theorem closeCalls_append : closeCalls (ts ++ us) = closeCalls ts ++ closeCalls us :=
  List.filterMap_append

@[simp] theorem closeCalls_cons {t : Turn} :
    closeCalls (t :: ts) = (closeCall? t.action).toList ++ closeCalls ts := by
  cases h : closeCall? t.action <;> simp [closeCalls, h]

/-- The first call of `close` is over. Its task is known by its name, so it must not have called
again before. -/
def FirstCloseOver (ts : List Turn) : Prop :=
  ∃ us t vs ws task, ts = us ++ t :: (vs ++ ws) ∧ closeCalls us = [] ∧
    closeCall? t.action = some task ∧ task ∉ closeCalls vs ∧ task ∈ shuts (t :: vs)

def closer? : Nat × Job → Option Nat
  | (task, .close) => some task
  | (_, .flush _) => none

def closing? : Nat × Stage → Option Nat
  | (task, .closing _) => some task
  | _ => none

def closers (o : Outbox) : List Nat :=
  o.waiting.filterMap closer? ++ (o.holder.bind closing?).toList

theorem closers_of_held {stage : Stage} (held : o.holder = some (task, stage))
    (other : stage.isClosing = false) : o.closers = o.waiting.filterMap closer? := by
  rw [closers, held]
  cases stage with
  | closing => cases other
  | connecting | invoking | dropping => exact List.append_nil _

theorem closers_of_free (free : o.holder = none) : o.closers = o.waiting.filterMap closer? := by
  rw [closers, free]
  exact List.append_nil _

theorem Goes.closers (h : o.Goes clock task now holder out) :
    out.filterMap Output.shut? = [] ∧ holder.bind closing? = none := by
  cases h <;> exact ⟨rfl, rfl⟩

theorem Enters.closers (h : o.Enters clock task job o' out) (free : o.holder = none) :
    (o.closers ++ (closer? (task, job)).toList).Perm
      (out.filterMap Output.shut? ++ o'.closers) := by
  rw [closers_of_free free]
  cases h with
  | waits => exact .refl _
  | flushes _ goes =>
    obtain ⟨silent, idle⟩ := goes.closers
    rw [silent, Outbox.closers, idle]
    exact .refl _
  | shuts =>
    rw [closers_of_free free]
    exact List.perm_append_comm
  | releases => exact .refl _

theorem Fails.closers {head : Notice} {f : Failure} (h : o.Fails p clock task now head f o' out) :
    out.filterMap Output.shut? = [] ∧ o'.closers = o.waiting.filterMap closer? := by
  cases h <;> exact ⟨rfl, List.append_nil _⟩

theorem closers_of_first {rest : List (Nat × Job)} (first : o.waiting = (task, job) :: rest) :
    o.closers = (closer? (task, job)).toList ++ { o with waiting := rest }.closers := by
  rw [closers, closers, first]
  cases job <;> rfl

/-- The task comes last in the queue, but its place among the closers does not matter. -/
theorem closers_of_last (o : Outbox) (task : Nat) (job : Job) :
    { o with waiting := o.waiting ++ [(task, job)] }.closers.Perm
      ((closer? (task, job)).toList ++ o.closers) := by
  have last : [(task, job)].filterMap closer? = (closer? (task, job)).toList := by
    cases job <;> rfl
  rw [closers, closers, List.filterMap_append, last, List.append_assoc]
  exact List.perm_append_comm_assoc _ _ _

theorem Asked.queued (h : o.Asked job o') (task : Nat) :
    { o' with waiting := o.waiting ++ [(task, job)] }.closers.Perm
      ((closer? (task, job)).toList ++ o.closers) := by
  cases h <;> exact closers_of_last o task _

theorem Asked.closers (h : o.Asked job o') : o'.closers = o.closers := by
  cases h <;> rfl

theorem closeCall_eq (task : Nat) (job : Job) :
    closeCall? (.call task job) = closer? (task, job) := by
  cases job <;> rfl

theorem Change.closers (h : Change p clock o a o' out) :
    ((closeCall? a).toList ++ o.closers).Perm (out.filterMap Output.shut? ++ o'.closers) := by
  cases h with
  | accepts | refuses | detaches | skips | repeats => exact .refl _
  | queues asked =>
    rw [closeCall_eq]
    exact (asked.queued _).symm
  | calls asked free _ enters =>
    have all := enters.closers (asked.same_holder.trans free)
    rw [asked.closers, ← closeCall_eq] at all
    exact List.perm_append_comm.trans all
  | @resumes task job rest o₂ out free first enters =>
    have all := List.perm_append_comm.trans (enters.closers free)
    rw [← closers_of_first first] at all
    exact all
  | unreached held fails | dropped held fails =>
    obtain ⟨silent, all⟩ := fails.closers
    rw [silent, all, closers_of_held held rfl]
    exact .refl _
  | delivered held goes =>
    obtain ⟨silent, idle⟩ := goes.closers
    rw [filterMap_after (fun _ => rfl) (fun _ => rfl), silent, closers_of_held held rfl,
      Outbox.closers, idle, Option.toList_none, List.append_nil]
    exact .refl _
  | connected held | rejected held =>
    rw [closers_of_held held rfl, closers_of_held rfl rfl]
    exact .refl _
  | closes held =>
    rw [Outbox.closers, held, closers_of_free rfl]
    exact List.perm_append_singleton _ _

theorem closers_of_trace (run : Trace (step p) o ts o') :
    (closeCalls ts ++ o.closers).Perm (shuts ts ++ o'.closers) := by
  induction run with
  | refl => exact .refl _
  | @tail ts u v clock a out _ last ih =>
    have now := (step_change last).closers
    rw [closeCalls_append, shuts, said_append, ← shuts, said_cons, said_nil, List.append_nil,
      closeCalls_cons, List.append_assoc (shuts ts)]
    have last_first : (closeCalls ts ++ ((closeCall? a).toList ++ closeCalls []) ++ o.closers).Perm
        ((closeCall? a).toList ++ (closeCalls ts ++ o.closers)) := by
      simpa [closeCalls] using List.perm_append_comm_assoc _ _ _
    have earlier : ((closeCall? a).toList ++ (closeCalls ts ++ o.closers)).Perm
        (shuts ts ++ ((closeCall? a).toList ++ u.closers)) :=
      (ih.append_left _).trans (List.perm_append_comm_assoc _ _ _)
    exact (last_first.trans earlier).trans (now.append_left _)

/-- What an outbox keeps in order, whoever uses it. -/
structure Tidy (o : Outbox) : Prop where
  bare : o.releasing? ≠ none → o.link = none
  gone : o.closed = true → o.detached = true
  begun : o.closed = false → o.closers = []
  done : o.closed = true → o.closers = [] → o.link = none ∧ o.holder = none

theorem tidy_create (h : Handle) (addr : Address) : Tidy (create h addr) where
  bare := nofun
  gone := nofun
  begun _ := rfl
  done _ _ := ⟨rfl, rfl⟩

theorem Enters.tidy (h : o.Enters clock task job o' out) (free : o.holder = none)
    (gone : o.closed = true → o.detached = true) (begun : o.closed = false → o.closers = [])
    (called : closer? (task, job) ≠ none → o.closed = true)
    (done : closer? (task, job) = none → o.closed = true → o.closers = [] → o.link = none) :
    Tidy o' := by
  have same : o.closers = o.waiting.filterMap closer? := closers_of_free free
  cases h with
  | waits =>
    have kept : { o with holder := none }.closers = o.closers := by rw [closers_of_free rfl, same]
    refine ⟨nofun, gone, fun open_still => kept.trans (begun open_still), fun closed none_left => ?_⟩
    exact ⟨done rfl closed (kept ▸ none_left), rfl⟩
  | @flushes now holder out _ goes =>
    have kept : { o with holder := holder }.closers = o.closers := by
      rw [Outbox.closers, goes.closers.2, same]
      exact List.append_nil _
    refine ⟨fun busy => absurd goes.released.2 busy, gone,
      fun open_still => kept.trans (begun open_still), fun closed none_left => ?_⟩
    exact ⟨done rfl closed (kept ▸ none_left), (goes.detached (gone closed)).1⟩
  | shuts bare => exact ⟨fun _ => bare, gone, begun, fun _ _ => ⟨bare, free⟩⟩
  | releases =>
    have closed := called nofun
    refine ⟨fun _ => rfl, gone, fun open_still => ?_, fun _ none_left => ?_⟩
    · rw [show o.closed = true from closed] at open_still
      cases open_still
    · simp [Outbox.closers, closing?] at none_left

namespace Tidy

theorem frame (tidy : Tidy o) (link : o'.link = o.link) (holder : o'.holder = o.holder)
    (closed : o'.closed = o.closed) (detached : o.detached = true → o'.detached = true)
    (closers : o'.closers.Perm o.closers) : Tidy o' where
  bare := by simpa [releasing?, link, holder] using tidy.bare
  gone shut := detached (tidy.gone (closed ▸ shut))
  begun open_still := (tidy.begun (closed ▸ open_still) ▸ closers).eq_nil
  done shut none_left := by
    rw [link, holder]
    exact tidy.done (closed ▸ shut) (none_left ▸ closers.symm).eq_nil

theorem held {held : Nat × Stage} (tidy : Tidy o) (holds : o.holder = some held)
    (bare : o'.releasing? ≠ none → o'.link = none) (closed : o'.closed = o.closed)
    (detached : o'.detached = o.detached) (closers : o'.closers = o.closers) : Tidy o' where
  bare := bare
  gone := closed ▸ detached ▸ tidy.gone
  begun := closed ▸ closers ▸ tidy.begun
  done shut none_left := by
    obtain ⟨-, free⟩ := tidy.done (closed ▸ shut) (closers ▸ none_left)
    rw [holds] at free
    cases free

theorem step (tidy : Tidy o) (h : Change p clock o a o' out) : Tidy o' := by
  cases h with
  | accepts => exact tidy.frame rfl rfl rfl id (.refl _)
  | refuses | skips | repeats => exact tidy
  | detaches => exact tidy.frame rfl rfl rfl (fun _ => rfl) (.refl _)
  | @queues task job o₁ asked =>
    have queued := asked.queued task
    cases asked with
    | flush => exact tidy.frame rfl rfl rfl id queued
    | close =>
      refine ⟨tidy.bare, fun _ => rfl, nofun, fun _ none_left => ?_⟩
      rw [none_left] at queued
      cases queued.nil_eq
  | calls asked free alone enters =>
    cases asked with
    | flush usable =>
      exact enters.tidy free tidy.gone tidy.begun (fun other => absurd rfl other)
        fun _ closed none_left => (tidy.done closed none_left).1
    | close => exact enters.tidy free (fun _ => rfl) nofun (fun _ => rfl) nofun
  | @resumes task job rest o₂ out free first enters =>
    have all := closers_of_first first
    refine enters.tidy free tidy.gone (fun open_still => ?_) (fun called => ?_)
      fun other closed none_left => ?_
    · exact (List.append_eq_nil_iff.1 (all.symm.trans (tidy.begun open_still))).2
    · by_contra open_still
      have none_yet := tidy.begun (by simpa using open_still)
      simp [all, called] at none_yet
    · refine (tidy.done closed ?_).1
      rw [all, other, none_left]
      rfl
  | connected held =>
    refine tidy.held held nofun rfl rfl ?_
    rw [closers_of_held held rfl, closers_of_held rfl rfl]
  | unreached held fails | dropped held fails =>
    refine tidy.held held ?_ fails.works.closed fails.works.detached ?_
    · exact fun busy => absurd fails.released.2 busy
    · rw [closers_of_held held rfl, fails.closers.2]
  | delivered held goes =>
    refine tidy.held held (fun busy => absurd goes.released.2 busy) rfl rfl ?_
    rw [closers_of_held held rfl, closers, goes.closers.2]
    exact List.append_nil _
  | rejected held =>
    refine tidy.held held (fun _ => rfl) rfl rfl ?_
    rw [closers_of_held held rfl, closers_of_held rfl rfl]
  | closes held =>
    have busy : o.closers ≠ [] := by simp [closers, held, closing?]
    refine ⟨nofun, tidy.gone, fun open_still => absurd (tidy.begun open_still) busy, fun _ _ => ?_⟩
    refine ⟨tidy.bare ?_, rfl⟩
    simp [releasing?, held, Stage.releasing?]

end Tidy

theorem tidy_of_trace {h : Handle} {addr : Address} (run : Trace (step p) (create h addr) ts o) :
    Tidy o :=
  run.invariant (P := Tidy) (fun last tidy => tidy.step (step_change last)) (tidy_create h addr)

/-- Closed, with nothing left to do. -/
structure Shut (o : Outbox) : Prop where
  closed : o.closed = true
  detached : o.detached = true
  bare : o.link = none
  free : o.holder = none
  none_left : o.closers = []

theorem Tidy.shut (tidy : Tidy o) (closed : o.closed = true) (none_left : o.closers = []) :
    Shut o where
  closed := closed
  detached := tidy.gone closed
  bare := (tidy.done closed none_left).1
  free := (tidy.done closed none_left).2
  none_left := none_left

/-- A step that neither asks for a link nor uses or releases one. -/
structure Still (o : Outbox) (a : Action) (out : List Output) : Prop where
  unconnected : out.filterMap Output.connected? = []
  unopened : opens a = false
  unsent : out.filterMap Output.invoked? = []
  unreleased : out.filterMap Output.released? = []
  unclosed : o.closes? a = none

theorem Shut.step (shut : Shut o) (h : Change p clock o a o' out) : Shut o' ∧ Still o a out := by
  have free := shut.free
  have usable : o.closed ≠ false := by simp [shut.closed]
  cases h with
  | accepts live => simp [Outbox.accepts, shut.detached] at live
  | refuses | skips | repeats => exact ⟨shut, rfl, rfl, rfl, rfl, rfl⟩
  | detaches =>
    exact ⟨⟨shut.closed, rfl, shut.bare, free, shut.none_left⟩, rfl, rfl, rfl, rfl, rfl⟩
  | queues asked => cases asked <;> contradiction
  | calls asked => cases asked <;> contradiction
  | @resumes task job rest o₂ out _ first enters =>
    have all := (closers_of_first first).symm.trans shut.none_left
    obtain ⟨flush, none_left⟩ := List.append_eq_nil_iff.1 all
    rw [closers_of_free (by exact free)] at none_left
    have idle := (closers_of_free (o := { o with waiting := rest, holder := none }) rfl).trans
      none_left
    cases enters with
    | waits =>
      exact ⟨⟨shut.closed, shut.detached, shut.bare, rfl, idle⟩, rfl, rfl, rfl, rfl, rfl⟩
    | flushes _ goes =>
      obtain ⟨rfl, rfl⟩ := goes.detached shut.detached
      exact ⟨⟨shut.closed, shut.detached, shut.bare, rfl, idle⟩, rfl, rfl, rfl, rfl, rfl⟩
    | shuts | releases => cases flush
  | connected held | unreached held | delivered held | rejected held | dropped held
  | closes held =>
    rw [free] at held
    cases held

theorem still_of_shut (run : Trace (Outbox.step p) o ts o') (shut : Shut o) :
    Shut o' ∧ connects ts = [] ∧ openings ts = 0 ∧ invoked ts = [] ∧ released ts = [] ∧
      closings ts = [] := by
  induction run with
  | refl => exact ⟨shut, rfl, rfl, rfl, rfl, rfl⟩
  | tail _ last ih =>
    obtain ⟨before, unconnected, unopened, unsent, unreleased, unclosed⟩ := ih
    obtain ⟨after, still⟩ := before.step (step_change last)
    refine ⟨after, ?_, ?_, ?_, ?_, ?_⟩
    · simpa [connects, still.unconnected] using unconnected
    · simpa [still.unopened] using unopened
    · simpa [invoked, still.unsent] using unsent
    · simpa [released, still.unreleased] using unreleased
    · simpa [still.unclosed] using unclosed

theorem Enters.closed (h : o.Enters clock task job o' out) : o'.closed = o.closed := by
  cases h <;> rfl

theorem Change.closed (h : Change p clock o a o' out)
    (closed : o.closed = true ∨ closeCall? a ≠ none) : o'.closed = true := by
  cases h with
  | queues asked =>
    cases asked with
    | flush => exact closed.resolve_right (absurd rfl)
    | close => rfl
  | calls asked _ _ enters =>
    rw [enters.closed]
    cases asked with
    | flush => exact closed.resolve_right (absurd rfl)
    | close => rfl
  | resumes _ _ enters =>
    rw [enters.closed]
    exact closed.resolve_right (absurd rfl)
  | unreached _ fails | dropped _ fails =>
    rw [fails.works.closed]
    exact closed.resolve_right (absurd rfl)
  | repeats ended => exact ended
  | accepts | refuses | detaches | skips | connected | delivered | rejected | closes =>
    exact closed.resolve_right (absurd rfl)

/-- A call of `close` that finds the outbox closed does nothing. -/
theorem Change.repeated (h : Change p clock o a o' out) (closed : o.closed = true)
    (called : closeCall? a ≠ none) : o' = o := by
  cases h with
  | repeats => rfl
  | queues asked | calls asked =>
    cases asked with
    | flush => exact absurd rfl called
    | close usable => simp [closed] at usable
  | accepts | refuses | detaches | skips | resumes | connected | unreached | delivered | rejected |
    dropped | closes => exact absurd rfl called

theorem closers_of_closed (run : Trace (step p) o ts o') (closed : o.closed = true) :
    o'.closed = true ∧ o'.closers ⊆ o.closers := by
  induction run with
  | refl => exact ⟨closed, List.Subset.refl _⟩
  | @tail ts u v clock a out _ last ih =>
    obtain ⟨closed, within⟩ := ih
    have change := step_change last
    refine ⟨change.closed (.inl closed), List.Subset.trans ?_ within⟩
    by_cases called : closeCall? a = none
    · have all := change.closers
      rw [called] at all
      exact List.Subset.trans (List.subset_append_right _ _) all.symm.subset
    · rw [change.repeated closed called]
      exact List.Subset.refl _

theorem shut_of_first {h : Handle} {addr : Address} (run : Trace (step p) (create h addr) ts o)
    (closed : FirstCloseOver ts) : Shut o := by
  obtain ⟨us, t, vs, ws, task, rfl, none_before, call, once, told⟩ := closed
  rw [← List.cons_append, ← List.append_assoc] at run
  obtain ⟨u, called, rest⟩ := run.split
  obtain ⟨v, before, first, later⟩ := called.middle
  have change := step_change first
  have idle : t.before.closers = [] := by
    have all := closers_of_trace before
    rw [none_before] at all
    exact (List.append_eq_nil_iff.1 all.nil_eq.symm).2
  have only : v.closers ⊆ [task] := by
    have all := change.closers
    rw [call, idle] at all
    exact List.Subset.trans (List.subset_append_right _ _) all.symm.subset
  have closed : v.closed = true := change.closed (.inr (by simp [call]))
  obtain ⟨closed, within⟩ := closers_of_closed later closed
  have gone : task ∉ u.closers := by
    have whole : Trace (step p) t.before (t :: vs) u := (Trace.single first).append later
    have all := (closers_of_trace whole).count_eq task
    have told_once : 0 < (shuts (t :: vs)).count task := List.count_pos_iff.2 told
    have called_once : (closeCalls (t :: vs)).count task = 1 := by
      simp [call, List.count_eq_zero.2 once]
    refine List.count_eq_zero.1 ?_
    simp only [idle, List.append_nil, List.count_append] at all
    omega
  have none_left : u.closers = [] := by
    refine List.eq_nil_iff_forall_not_mem.2 fun k mem => gone ?_
    obtain rfl := List.mem_singleton.1 (only (within mem))
    exact mem
  exact (still_of_shut rest ((tidy_of_trace called).shut closed none_left)).1

theorem Enters.link (h : o.Enters clock task job o' out) :
    o'.link = o.link ∨ job = .close ∧ o'.detached = o.detached ∧ o'.connecting? = none := by
  cases h with
  | waits | flushes | shuts => exact .inl rfl
  | releases => exact .inr ⟨rfl, rfl, rfl⟩

theorem Asked.link (h : o.Asked job o') : o'.link = o.link := by
  cases h <;> rfl

theorem Fails.link {head : Notice} {f : Failure} (h : o.Fails p clock task now head f o' out) :
    o'.link = o.link := by
  cases h <;> rfl

/-- There is a link, or there will be none any more. -/
def Settled (o : Outbox) : Prop :=
  o.link ≠ none ∨ o.detached = true ∧ o.connecting? = none

theorem Change.link (h : Change p clock o a o' out) (tidy : Tidy o) (well : fails a = false)
    (unopened : opens a = false) :
    o'.link = o.link ∨ o'.detached = true ∧ o'.connecting? = none := by
  cases h with
  | queues asked => exact .inl asked.link
  | calls asked _ _ enters =>
    rcases enters.link with same | ⟨rfl, gone, idle⟩
    · exact .inl (same.trans asked.link)
    · refine .inr ⟨?_, idle⟩
      cases asked
      exact gone
  | @resumes task job rest o₂ out _ first enters =>
    rcases enters.link with same | ⟨rfl, gone, idle⟩
    · exact .inl same
    · refine .inr ⟨gone.trans (tidy.gone ?_), idle⟩
      by_contra usable
      have none_yet := tidy.begun (by simpa using usable)
      rw [closers_of_first first] at none_yet
      cases none_yet
  | connected => cases unopened
  | unreached | rejected => cases well
  | dropped _ fails => exact .inl fails.link
  | accepts | refuses | detaches | skips | repeats | delivered | closes => exact .inl rfl

theorem Linked.bare {rel : List Nat} {n : Nat} (linked : Linked rel n o)
    (waits : o.connecting?.isSome = true) : o.link = none ∧ o.releasing? = none := by
  obtain ⟨head, waits⟩ := Option.isSome_iff_exists.1 waits
  obtain ⟨⟨task, stage⟩, held, eq⟩ := Option.bind_eq_some_iff.1 waits
  cases stage with
  | connecting =>
    refine ⟨linked.needs _ held, ?_⟩
    rw [releasing?, held]
    rfl
  | invoking | dropping | closing => cases eq

theorem Settled.unopened {rel : List Nat} {n : Nat} (settled : Settled o) (linked : Linked rel n o)
    (h : Change p clock o a o' out) : opens a = false := by
  by_contra opened
  have waited := (h.sent (by simpa using opened)).2.1
  rcases settled with held | ⟨-, idle⟩
  · exact held (linked.bare waited).1
  · simp [idle] at waited

theorem Settled.step {rel : List Nat} {n : Nat} (settled : Settled o) (tidy : Tidy o)
    (linked : Linked rel n o) (h : Change p clock o a o' out) (well : fails a = false) :
    Settled o' := by
  have unopened := settled.unopened linked h
  rcases settled with held | ⟨gone, idle⟩
  · rcases h.link tidy well unopened with same | settled
    · exact .inl (same ▸ held)
    · exact .inr settled
  · refine .inr ⟨(h.quiet gone).detached, ?_⟩
    exact (h.unsent gone unopened).2.elim (·.trans idle) id

theorem settled_of_trace {h : Handle} {addr : Address} (before : Trace (step p) (create h addr) ts o)
    (run : Trace (step p) o us o') (settled : Settled o) (well : ∀ t ∈ us, fails t.action = false) :
    Settled o' := by
  induction run with
  | refl => exact settled
  | @tail us u v clock a out earlier last ih =>
    have now : fails a = false := well _ (List.mem_append_right _ (List.mem_singleton_self _))
    have whole := before.append earlier
    exact (ih fun t mem => well t (List.mem_append_left _ mem)).step (tidy_of_trace whole)
      (linked_of_trace whole) (step_change last) now

theorem Change.settled (h : Change p clock o a o' out) (opened : opens a = true) : Settled o' := by
  cases h with
  | connected => exact .inl nofun
  | accepts | refuses | detaches | skips | repeats | queues | calls | resumes | unreached |
    delivered | rejected | dropped | closes => cases opened

theorem Goes.bare (h : o.Goes clock task now holder out)
    (asks : out.filterMap Output.connected? ≠ []) : o.link = none := by
  cases h with
  | ended | sends => exact absurd rfl asks
  | connects _ _ bare => exact bare

theorem Enters.bare (h : o.Enters clock task job o' out)
    (asks : out.filterMap Output.connected? ≠ []) : o.link = none := by
  cases h with
  | waits | shuts | releases => exact absurd rfl asks
  | flushes _ goes => exact goes.bare asks

theorem Change.bare (h : Change p clock o a o' out)
    (asks : out.filterMap Output.connected? ≠ []) : o.link = none ∧ o.releasing? = none := by
  cases h with
  | calls asked free _ enters =>
    refine ⟨asked.link.symm.trans (enters.bare asks), ?_⟩
    rw [releasing?, free]
    rfl
  | resumes free _ enters =>
    refine ⟨enters.bare asks, ?_⟩
    rw [releasing?, free]
    rfl
  | delivered held goes =>
    rw [filterMap_after (fun _ => rfl) (fun _ => rfl)] at asks
    refine ⟨goes.bare asks, ?_⟩
    rw [releasing?, held]
    rfl
  | unreached _ fails | dropped _ fails =>
    cases fails <;> exact absurd rfl asks
  | accepts | refuses | detaches | skips | repeats | queues | connected | rejected | closes =>
    exact absurd rfl asks

theorem closings_of_trace {h : Handle} {addr : Address} (run : Trace (step p) (create h addr) ts o) :
    closings ts ++ o.releasing?.toList ++ o.link.toList = List.range (openings ts) := by
  have linked := linked_of_trace run
  rw [← released_of_trace run, linked.all, linked.count]

theorem openings_of_trace {h : Handle} {addr : Address} (run : Trace (step p) (create h addr) ts o) :
    openings ts = (closings ts).length ∧ o.link = none ∧ o.releasing? = none ∨
      openings ts = (closings ts).length + 1 ∧ (o.link.isSome = true ↔ o.releasing? = none) := by
  have all := congrArg List.length (closings_of_trace run)
  have bare := (tidy_of_trace run).bare
  simp only [List.length_append, List.length_range] at all
  cases releasing : o.releasing? with
  | none =>
    cases held : o.link with
    | none => exact .inl ⟨by simpa [releasing, held] using all.symm, rfl, rfl⟩
    | some link => exact .inr ⟨by simpa [releasing, held] using all.symm, by simp⟩
  | some link =>
    have held := bare (by simp [releasing])
    exact .inr ⟨by simpa [releasing, held] using all.symm, by simp [held]⟩

theorem openings_of_bare {h : Handle} {addr : Address} (run : Trace (step p) (create h addr) ts o)
    (bare : o.link = none ∧ o.releasing? = none) : openings ts = (closings ts).length := by
  rcases openings_of_trace run with ⟨same, -⟩ | ⟨-, held⟩
  · exact same
  · simp [bare.1, bare.2] at held

/-- Of the links that an outbox opened all are closed, each once and one after the other, but at most
the last: it is held, or a failed flush or a call of `close` is releasing it. A link is asked for, and
opens, only when all are closed, so between two of them an attempt failed. When the first call of
`close` is over, all are closed; and whatever happens then, no link is asked for, opens, is used or
is released any more. -/
theorem closes_each_link_once {h : Handle} {addr : Address}
    (run : Trace (step p) (create h addr) ts o) :
    (closings ts ++ o.releasing?.toList ++ o.link.toList = List.range (openings ts) ∧
      (openings ts = (closings ts).length ∨
        openings ts = (closings ts).length + 1 ∧
          (o.link.isSome = true ∨ o.releasing?.isSome = true))) ∧
    (∀ us t vs, ts = us ++ t :: vs → connects [t] ≠ [] ∨ opens t.action = true →
      openings us = (closings us).length) ∧
    (∀ us t vs t' ws, ts = us ++ t :: (vs ++ t' :: ws) → opens t.action = true →
      opens t'.action = true → ∃ m ∈ vs, fails m.action = true) ∧
    (FirstCloseOver ts →
      released ts = closings ts ∧ closings ts = List.range (openings ts) ∧
      ∀ us o', Trace (step p) o us o' → connects us = [] ∧ openings us = 0 ∧ invoked us = [] ∧
        released us = [] ∧ closings us = []) := by
  refine ⟨⟨closings_of_trace run, ?_⟩, ?_, ?_, ?_⟩
  · rcases openings_of_trace run with ⟨same, -⟩ | ⟨one_more, held⟩
    · exact .inl same
    · refine .inr ⟨one_more, ?_⟩
      cases releasing : o.releasing? with
      | none => exact .inl (held.2 releasing)
      | some link => exact .inr rfl
  · rintro us t vs rfl asks
    obtain ⟨v, before, now, -⟩ := run.middle
    have change := step_change now
    refine openings_of_bare before (asks.elim (fun asked => change.bare ?_) fun opened => ?_)
    · simpa [connects] using asked
    · exact (linked_of_trace before).bare (change.sent opened).2.1
  · rintro us t vs t' ws rfl opened opened'
    obtain ⟨v, before, now, after⟩ := run.middle
    obtain ⟨w, between, later, -⟩ := after.middle
    by_contra well
    have settled := (step_change now).settled opened
    have first : Trace (step p) (create h addr) (us ++ [t]) v := before.append (.single now)
    have still := settled_of_trace first between settled fun m mem => by
      by_contra failed
      exact well ⟨m, mem, by simpa using failed⟩
    have linked := linked_of_trace (first.append between)
    rw [still.unopened linked (step_change later)] at opened'
    cases opened'
  · intro ended
    have shut := shut_of_first run ended
    have idle : o.releasing? = none := by
      rw [releasing?, shut.free]
      rfl
    refine ⟨?_, ?_, fun us o' later => (still_of_shut later shut).2⟩
    · simpa [idle] using released_of_trace run
    · simpa [idle, shut.bare] using closings_of_trace run

/-- The first attempt fails. While the second is under way two tasks call `close`, and then a third. -/
def closedInFlight : List (Nat × Action) :=
  [(0, .enqueue (sampleNotice "a")), (1, .call 0 (.flush 1)), (2, .answer (.connected (.ok ()))),
    (3, .answer (.invoked (.error .closed))), (4, .answer .released), (200, .call 1 (.flush 200)),
    (201, .call 2 .close), (202, .call 3 .close), (203, .answer (.connected (.ok ()))),
    (204, .answer (.invoked (.ok ()))), (205, .resume), (206, .answer .released)]

theorem firstCloseOver_at {k : Nat} (none_before : closeCalls (ts.take k) = [])
    (call : (ts[k]?.bind fun t => closeCall? t.action) = some task)
    (once : task ∉ closeCalls (ts.drop (k + 1))) (told : task ∈ shuts (ts.drop k)) :
    FirstCloseOver ts := by
  obtain ⟨t, at_k, call⟩ := Option.bind_eq_some_iff.1 call
  obtain ⟨within, rfl⟩ := List.getElem?_eq_some_iff.1 at_k
  have rest : ts.drop k = ts[k] :: ts.drop (k + 1) := List.drop_eq_getElem_cons within
  refine ⟨ts.take k, ts[k], ts.drop (k + 1), [], task, ?_, none_before, call, once, rest ▸ told⟩
  rw [List.append_nil, ← rest, List.take_append_drop]

theorem closes_each_link_once_in_flight :
    ∃ ts o, Trace (step samplePolicy) sampleOutbox ts o ∧ openings ts = 2 ∧ FirstCloseOver ts ∧
      closings ts = [0, 1] ∧
      ∀ us o', Trace (step samplePolicy) o us o' → openings us = 0 ∧ closings us = [] := by
  have seen : ((play (step samplePolicy) sampleOutbox closedInFlight).map fun r =>
      (openings r.1, closeCalls (r.1.take 6), r.1[6]?.bind fun t => closeCall? t.action,
        closeCalls (r.1.drop 7), shuts (r.1.drop 6))) = some (2, [], some 2, [3], [3, 2]) := by
    decide
  obtain ⟨⟨ts, o⟩, played, eq⟩ := Option.map_eq_some_iff.1 seen
  simp only [Prod.mk.injEq] at eq
  obtain ⟨opened, none_before, call, others, told⟩ := eq
  have run := trace_of_play played
  have ended : FirstCloseOver ts := firstCloseOver_at none_before call (by simp [others])
    (by simp [told])
  obtain ⟨-, closed, silent⟩ := (closes_each_link_once run).2.2.2 ended
  rw [opened] at closed
  refine ⟨ts, o, run, opened, ended, closed, fun us o' later => ?_⟩
  obtain ⟨-, unopened, -, -, unclosed⟩ := silent us o' later
  exact ⟨unopened, unclosed⟩

end SessionCourier.Outbox
