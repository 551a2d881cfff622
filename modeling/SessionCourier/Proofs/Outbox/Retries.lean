import Mathlib.Algebra.GroupWithZero.Nat
import Mathlib.Data.List.DropRight
import SessionCourier.Proofs.Outbox.Alone
import SessionCourier.Proofs.Outbox.Detached

set_option autoImplicit false

/-!
# How often an outbox tries again

An outbox counts the attempts that failed in a row, from the last delivery on. The count goes up when
the failed attempt has given up its link, so while a link is being given up the count is one behind.
The flush that makes it exceed the number of retries says so, unless the outbox was detached before;
it empties the queue, and nothing is tried any more.
-/

namespace SessionCourier.Outbox

variable {p : Policy} {clock task now failed : Nat} {o o' : Outbox} {a : Action}
  {out : List Output} {holder : Option (Nat × Stage)} {ts : List Turn}

/-- No link opened, or the driver did not take the notice. -/
def fails : Action → Bool
  | .answer (.connected (.error _)) | .answer (.invoked (.error _)) => true
  | _ => false

def failedInARow (ts : List Turn) : Nat :=
  (ts.rtakeWhile fun t => (t.before.delivers? t.action).isNone).countP fun t => fails t.action

def Stage.isDropping : Stage → Bool
  | .dropping .. => true
  | _ => false

/-- A failed attempt is giving up its link. -/
def isDropping (o : Outbox) : Bool := o.holder.any (·.2.isDropping)

/-- An attempt is under way, or it has failed and is giving up its link. -/
def isAttempting (o : Outbox) : Bool := o.holder.any (!·.2.isClosing)

/-- The task whose flush ends with this action because its attempt failed. -/
def failing? (o : Outbox) : Action → Option Nat
  | .answer (.connected (.error _)) =>
    match o.holder with
    | some (task, .connecting ..) => some task
    | _ => none
  | .answer .released =>
    match o.holder with
    | some (task, .dropping ..) => some task
    | _ => none
  | _ => none

theorem held_of_failing (failing : o.failing? a = some task) :
    (∃ now head f, a = .answer (.connected (.error f)) ∧
      o.holder = some (task, .connecting now head)) ∨
    ∃ now link head f, a = .answer .released ∧
      o.holder = some (task, .dropping now link head f) := by
  unfold failing? at failing
  split at failing
  · split at failing
    · rename_i held
      cases failing
      exact .inl ⟨_, _, _, rfl, held⟩
    · cases failing
  · split at failing
    · rename_i held
      cases failing
      exact .inr ⟨_, _, _, _, rfl, held⟩
    · cases failing
  · cases failing

theorem attempting_of_failing (failing : o.failing? a = some task) : o.isAttempting = true := by
  rw [isAttempting]
  obtain ⟨now, head, f, -, held⟩ | ⟨now, link, head, f, -, held⟩ := held_of_failing failing
  all_goals
    rw [held]
    rfl

/-- The retries are used up, and nothing is left to try. -/
structure Spent (o : Outbox) : Prop where
  exhausted : o.exhausted = true
  empty : o.queue = []
  idle : o.isAttempting = false

/-- What the failure that uses up the retries does. -/
structure Exhausts (p : Policy) (o : Outbox) (task : Nat) (o' : Outbox) (out : List Output) :
    Prop where
  live : o.detached = false
  last : p.isExhausted (o.failures + 1) = true
  spent : Spent o'
  handle : o'.handle = o.handle
  told : out.filterMap Output.alive? = [false]
  names : ∀ k, .flushed k false ∈ out ↔ k = task
  verdict : Shard.over? out = some false
  unconnected : out.filterMap Output.connected? = []
  unsent : out.filterMap Output.invoked? = []

/-- Any other step: no flush says that the retries are used up, and they are not. -/
structure Lasts (o : Outbox) (o' : Outbox) (out : List Output) : Prop where
  told : ∀ alive ∈ out.filterMap Output.alive?, alive = true
  exhausted : o'.exhausted = o.exhausted

theorem Lasts.not_mem (lasts : Lasts o o' out) (k : Nat) : .flushed k false ∉ out := by
  intro mem
  have told := lasts.told false (List.mem_filterMap.2 ⟨_, mem, rfl⟩)
  cases told

theorem Lasts.verdict (lasts : Lasts o o' out) : Shard.over? out ≠ some false := by
  intro dead
  obtain ⟨e, mem, eq⟩ := List.exists_of_findSome?_eq_some dead
  cases e with
  | flushed k alive =>
    cases eq
    exact lasts.not_mem k mem
  | _ => cases eq

theorem Goes.lasts (h : o.Goes clock task now holder out) :
    Lasts o { o with holder := holder } out := by
  cases h <;> exact ⟨by simp [Output.alive?], rfl⟩

theorem Enters.lasts {job : Job} (h : o.Enters clock task job o' out) : Lasts o o' out := by
  cases h with
  | flushes _ goes => exact goes.lasts
  | waits | shuts | releases => exact ⟨by simp [Output.alive?], rfl⟩

theorem Asked.exhausted {job : Job} (h : o.Asked job o') : o'.exhausted = o.exhausted := by
  cases h <;> rfl

theorem Fails.verdict {head : Notice} {f : Failure} (h : o.Fails p clock task now head f o' out) :
    Exhausts p o task o' out ∨
      Lasts o o' out ∧ (o.detached = true ∨ p.isExhausted (o.failures + 1) = false) := by
  cases h with
  | abandons gone => exact .inr ⟨⟨by simp [Output.alive?], rfl⟩, .inl gone⟩
  | exhausts live last =>
    exact .inl {
      live := live
      last := last
      spent := ⟨rfl, rfl, rfl⟩
      handle := rfl
      told := rfl
      names := by simp
      verdict := rfl
      unconnected := rfl
      unsent := rfl }
  | retries _ left => exact .inr ⟨⟨by simp [Output.alive?], rfl⟩, .inr left⟩

theorem Change.verdict (h : Change p clock o a o' out) :
    (∃ task, o.failing? a = some task ∧ Exhausts p o task o' out) ∨
      Lasts o o' out ∧ (o.failing? a = none ∨ o.detached = true ∨
        p.isExhausted (o.failures + 1) = false) := by
  cases h with
  | @unreached task now head f o₂ out held fails =>
    have failing : o.failing? (.answer (.connected (.error f))) = some task := by
      simp [failing?, held]
    rcases fails.verdict with exhausts | ⟨lasts, left⟩
    · exact .inl ⟨task, failing, exhausts⟩
    · exact .inr ⟨lasts, .inr left⟩
  | @dropped task now link head f o₂ out held fails =>
    have failing : o.failing? (.answer .released) = some task := by simp [failing?, held]
    rcases fails.verdict with exhausts | ⟨lasts, left⟩
    · exact .inl ⟨task, failing, exhausts⟩
    · exact .inr ⟨lasts, .inr left⟩
  | calls asked _ _ enters =>
    have lasts := enters.lasts
    exact .inr ⟨⟨lasts.told, lasts.exhausted.trans asked.exhausted⟩, .inl rfl⟩
  | resumes _ _ enters =>
    have lasts := enters.lasts
    exact .inr ⟨⟨lasts.told, lasts.exhausted⟩, .inl rfl⟩
  | queues asked => exact .inr ⟨⟨by simp, asked.exhausted⟩, .inl rfl⟩
  | delivered _ goes =>
    refine .inr ⟨⟨?_, rfl⟩, .inl rfl⟩
    rw [filterMap_after (fun _ => rfl) (fun _ => rfl)]
    exact goes.lasts.told
  | closes held =>
    exact .inr ⟨⟨by simp [Output.alive?], rfl⟩, .inl (by simp [failing?, held])⟩
  | accepts | refuses | detaches | skips | repeats | connected | rejected =>
    exact .inr ⟨⟨by simp [Output.alive?], rfl⟩, .inl rfl⟩

theorem Goes.of_empty (h : o.Goes clock task now holder out) (empty : o.queue = []) :
    holder = none ∧ out = [.flushed task true] := by
  cases h with
  | ended => exact ⟨rfl, rfl⟩
  | sends _ front | connects _ front => simp [empty] at front

namespace Spent

theorem waiting (spent : Spent o) (waiting : List (Nat × Job)) :
    Spent { o with waiting := waiting } :=
  ⟨spent.exhausted, spent.empty, spent.idle⟩

theorem asked {job : Job} (spent : Spent o) (h : o.Asked job o') : Spent o' := by
  cases h with
  | flush => exact spent
  | close => exact ⟨spent.exhausted, rfl, spent.idle⟩

theorem enters {job : Job} (spent : Spent o) (h : o.Enters clock task job o' out) :
    Spent o' ∧ out.filterMap Output.connected? = [] ∧ out.filterMap Output.invoked? = [] := by
  cases h with
  | waits => exact ⟨⟨spent.exhausted, spent.empty, rfl⟩, rfl, rfl⟩
  | shuts => exact ⟨spent, rfl, rfl⟩
  | flushes _ goes =>
    obtain ⟨rfl, rfl⟩ := goes.of_empty spent.empty
    exact ⟨⟨spent.exhausted, spent.empty, rfl⟩, rfl, rfl⟩
  | releases => exact ⟨⟨spent.exhausted, spent.empty, rfl⟩, rfl, rfl⟩

theorem step (spent : Spent o) (h : Change p clock o a o' out) :
    Spent o' ∧ out.filterMap Output.connected? = [] ∧ out.filterMap Output.invoked? = [] := by
  have idle := spent.idle
  cases h with
  | accepts live => simp [Outbox.accepts, spent.exhausted] at live
  | refuses | skips | repeats => exact ⟨spent, rfl, rfl⟩
  | detaches => exact ⟨⟨spent.exhausted, rfl, idle⟩, rfl, rfl⟩
  | queues asked => exact ⟨(spent.asked asked).waiting _, rfl, rfl⟩
  | calls asked _ _ enters => exact (spent.asked asked).enters enters
  | @resumes task job rest o₂ out _ _ enters => exact (spent.waiting rest).enters enters
  | connected held | unreached held | delivered held | rejected held | dropped held =>
    rw [isAttempting, held] at idle
    cases idle
  | closes => exact ⟨⟨spent.exhausted, spent.empty, rfl⟩, rfl, rfl⟩

end Spent

theorem fit_of_failing (known : o.exhausted = true → Spent o) (failing : o.failing? a = some task) :
    o.exhausted = false := by
  by_contra exhausted
  have idle := (known (by simpa using exhausted)).idle
  rw [attempting_of_failing failing] at idle
  cases idle

theorem spent_of_trace {h : Handle} {addr : Address} (run : Trace (step p) (create h addr) ts o) :
    o.exhausted = true → Spent o := by
  refine run.invariant (P := fun o => o.exhausted = true → Spent o) ?_ nofun
  intro clock u a v out last known exhausted
  have change := step_change last
  rcases change.verdict with ⟨task, -, exhausts⟩ | ⟨lasts, -⟩
  · exact exhausts.spent
  · exact ((known (lasts.exhausted.symm.trans exhausted)).step change).1

theorem silent_of_spent (run : Trace (step p) o ts o') (spent : Spent o) :
    Spent o' ∧ connects ts = [] ∧ invoked ts = [] := by
  induction run with
  | refl => exact ⟨spent, rfl, rfl⟩
  | tail _ last ih =>
    obtain ⟨spent, unconnected, unsent⟩ := ih
    obtain ⟨spent', silent, quiet⟩ := spent.step (step_change last)
    refine ⟨spent', ?_, ?_⟩
    · simpa [connects, silent] using unconnected
    · simpa [invoked, quiet] using unsent

@[simp] theorem failedInARow_append (ts : List Turn) (t : Turn) :
    failedInARow (ts ++ [t]) =
      if (t.before.delivers? t.action).isSome then 0
      else failedInARow ts + (fails t.action).toNat := by
  cases delivers : t.before.delivers? t.action with
  | some n => simp [failedInARow, delivers]
  | none =>
    cases failed : fails t.action <;>
      simp [failedInARow, delivers, failed, List.countP_append]

/-- How an outbox stands to the number of attempts that failed in a row. -/
structure Budgeted (p : Policy) (failed : Nat) (o : Outbox) : Prop where
  count : failed = o.failures.toNat + o.isDropping.toNat
  bound : o.failures.toNat ≤ p.maxRetries.toNat + 1
  /-- As long as there can be an attempt, there is a retry left for it. -/
  room : o.accepts = true ∨ o.isAttempting = true → o.failures.toNat ≤ p.maxRetries.toNat

theorem budgeted_create (h : Handle) (addr : Address) : Budgeted p 0 (create h addr) where
  count := rfl
  bound := Nat.zero_le _
  room _ := Nat.zero_le _

namespace Budgeted

theorem frame (h : Budgeted p failed o) (failures : o'.failures = o.failures)
    (dropping : o'.isDropping = o.isDropping)
    (room : o'.accepts = true ∨ o'.isAttempting = true →
      o.accepts = true ∨ o.isAttempting = true) : Budgeted p failed o' where
  count := by rw [failures, dropping, h.count]
  bound := failures ▸ h.bound
  room able := failures ▸ h.room (room able)

theorem next (few : p.maxRetries.toNat + 1 < 2 ^ 32) (room : o.failures.toNat ≤ p.maxRetries.toNat) :
    (o.failures + 1).toNat = o.failures.toNat + 1 := by
  have one : (1 : UInt32).toNat = 1 := rfl
  rw [UInt32.toNat_add, one]
  omega

theorem fails {head : Notice} {f : Failure} (h : Budgeted p failed o)
    (few : p.maxRetries.toNat + 1 < 2 ^ 32) (tries : o.isAttempting = true)
    (e : o.Fails p clock task now head f o' out) : Budgeted p (o.failures.toNat + 1) o' := by
  have room := h.room (.inr tries)
  have next := next few room
  cases e with
  | abandons gone =>
    refine ⟨next.symm, ?_, fun able => ?_⟩
    · change (o.failures + 1).toNat ≤ _
      omega
    · simp [Outbox.accepts, gone, isAttempting] at able
  | exhausts =>
    refine ⟨next.symm, ?_, fun able => ?_⟩
    · change (o.failures + 1).toNat ≤ _
      omega
    · simp [Outbox.accepts, isAttempting] at able
  | retries _ left =>
    have within : (o.failures + 1).toNat ≤ p.maxRetries.toNat := by
      simpa [Policy.isExhausted, UInt32.le_iff_toNat_le] using left
    exact ⟨next.symm, Nat.le_succ_of_le within, fun _ => within⟩

theorem goes (h : Budgeted p failed { o with holder := none }) (known : o.exhausted = true → o.queue = [])
    (g : o.Goes clock task now holder out) : Budgeted p failed { o with holder := holder } := by
  cases g with
  | ended => exact h
  | sends live front | connects live front =>
    have fit : o.exhausted = false := by
      by_contra exhausted
      simp [known (by simpa using exhausted)] at front
    refine h.frame rfl rfl fun _ => .inl ?_
    simp [Outbox.accepts, live, fit]

theorem enters {job : Job} (h : Budgeted p failed o) (free : o.holder = none)
    (known : o.exhausted = true → o.queue = []) (e : o.Enters clock task job o' out) :
    Budgeted p failed o' := by
  have idle : Budgeted p failed { o with holder := none } := by
    rw [← free]
    exact h
  cases e with
  | waits => exact idle
  | flushes _ g => exact idle.goes known g
  | shuts => exact h
  | releases => exact idle.frame rfl rfl id

theorem asked {job : Job} (h : Budgeted p failed o) (e : o.Asked job o') : Budgeted p failed o' := by
  cases e with
  | flush => exact h
  | close =>
    have gone : { o with closed := true }.detach.accepts ≠ true := by simp [Outbox.accepts, detach]
    exact h.frame rfl rfl fun able => .inr (able.resolve_left gone)

theorem step (h : Budgeted p failed o) (few : p.maxRetries.toNat + 1 < 2 ^ 32)
    (known : o.exhausted = true → Spent o) (c : Change p clock o a o' out) :
    Budgeted p (if (o.delivers? a).isSome then 0 else failed + (Outbox.fails a).toNat) o' := by
  have empty : o.exhausted = true → o.queue = [] := fun exhausted => (known exhausted).empty
  cases c with
  | accepts live => exact h.frame rfl rfl fun _ => .inl live
  | refuses | skips | repeats => exact h
  | detaches =>
    have gone : o.detach.accepts ≠ true := by simp [Outbox.accepts, detach]
    exact h.frame rfl rfl fun able => .inr (able.resolve_left gone)
  | queues asked => exact (h.asked asked).frame rfl rfl id
  | calls asked free _ enters =>
    refine (h.asked asked).enters (asked.same_holder.trans free) (fun exhausted => ?_) enters
    exact ((known (asked.exhausted.symm.trans exhausted)).asked asked).empty
  | @resumes task job rest o₂ out free _ enters =>
    have waited : Budgeted p failed { o with waiting := rest } := h.frame rfl rfl id
    exact waited.enters free empty enters
  | connected held =>
    refine h.frame rfl ?_ fun _ => .inr ?_
    · rw [isDropping, isDropping, held]
      rfl
    · rw [isAttempting, held]
      rfl
  | unreached held fails =>
    have tries : o.isAttempting = true := by rw [isAttempting, held]; rfl
    have settled : o.isDropping = false := by rw [isDropping, held]; rfl
    have one_more := h.fails few tries fails
    rw [h.count, settled]
    exact one_more
  | @delivered task now link head since holder out held goes =>
    have delivers : o.delivers? (.answer (.invoked (.ok ()))) = some head := by
      rw [delivers?, inFlight?, held]
      rfl
    have reset : Budgeted p 0 { o with
        queue := o.queue.tail, failures := 0, nextAttempt := none, holder := none } :=
      ⟨rfl, Nat.zero_le _, fun _ => Nat.zero_le _⟩
    rw [delivers]
    exact reset.goes (fun exhausted => by simp [empty exhausted]) goes
  | @rejected task now link head since f held =>
    have tries : o.isAttempting = true := by rw [isAttempting, held]; rfl
    have settled : o.isDropping = false := by rw [isDropping, held]; rfl
    -- The failure is seen now, but stored only when the link is given up.
    have count := h.count
    rw [settled] at count
    refine ⟨?_, h.bound, fun _ => h.room (.inr tries)⟩
    rw [count]
    rfl
  | @dropped task now link head f o₂ out held fails =>
    have tries : o.isAttempting = true := by rw [isAttempting, held]; rfl
    have dropping : o.isDropping = true := by rw [isDropping, held]; rfl
    have one_more := h.fails few tries fails
    have count := h.count
    rw [dropping] at count
    rw [count]
    exact one_more
  | closes held =>
    refine h.frame rfl ?_ fun able => .inl ?_
    · rw [isDropping, isDropping, held]
      rfl
    · exact able.resolve_right (by simp [isAttempting])

end Budgeted

theorem budgeted_of_trace {h : Handle} {addr : Address} (few : p.maxRetries.toNat + 1 < 2 ^ 32)
    (run : Trace (step p) (create h addr) ts o) : Budgeted p (failedInARow ts) o := by
  induction run with
  | refl => exact budgeted_create h addr
  | tail before last ih =>
    rw [failedInARow_append]
    exact ih.step few (spent_of_trace before) (step_change last)

theorem count_of_failing (failing : o.failing? a = some task) :
    o.delivers? a = none ∧ o.isDropping.toNat + (fails a).toNat = 1 := by
  rw [isDropping]
  obtain ⟨now, head, f, rfl, held⟩ | ⟨now, link, head, f, rfl, held⟩ := held_of_failing failing
  all_goals
    rw [held]
    exact ⟨rfl, rfl⟩

theorem mem_flushed_false {h : Handle} {addr : Address} {t : Turn}
    (few : p.maxRetries.toNat + 1 < 2 ^ 32) (run : Trace (step p) (create h addr) (ts ++ [t]) o) :
    .flushed task false ∈ t.outputs ↔ t.before.failing? t.action = some task ∧
      failedInARow (ts ++ [t]) = p.maxRetries.toNat + 1 ∧ t.before.detached = false := by
  obtain ⟨before, last⟩ := run.of_snoc
  have budgeted := budgeted_of_trace few before
  have last_allowed {k : Nat} (failing : t.before.failing? t.action = some k) :
      p.isExhausted (t.before.failures + 1) = true ↔
        failedInARow (ts ++ [t]) = p.maxRetries.toNat + 1 := by
    -- An attempt is under way, so there was a retry left for it and the stored count cannot wrap.
    have room := budgeted.room (.inr (attempting_of_failing failing))
    obtain ⟨undelivered, one⟩ := count_of_failing failing
    have count : failedInARow (ts ++ [t]) = t.before.failures.toNat + 1 := by
      have before_count := budgeted.count
      rw [failedInARow_append, undelivered]
      simp only [Option.isSome_none, Bool.false_eq_true, if_false]
      omega
    have next := Budgeted.next few room
    rw [count, Policy.isExhausted, decide_eq_true_eq, UInt32.lt_iff_toNat_lt]
    omega
  rcases (step_change last).verdict with ⟨k, failing, exhausts⟩ | ⟨lasts, reason⟩
  · rw [exhausts.names, failing, Option.some_inj]
    constructor
    · rintro rfl
      exact ⟨rfl, (last_allowed failing).1 exhausts.last, exhausts.live⟩
    · rintro ⟨rfl, -⟩
      rfl
  · refine ⟨fun mem => absurd mem (lasts.not_mem task), ?_⟩
    rintro ⟨failing, count, live⟩
    rcases reason with idle | gone | left
    · rw [failing] at idle
      cases idle
    · rw [live] at gone
      cases gone
    · rw [(last_allowed failing).2 count] at left
      cases left

theorem count_flushed_false {h : Handle} {addr : Address}
    (run : Trace (step p) (create h addr) ts o) :
    (endings ts).count false = o.exhausted.toNat := by
  induction run with
  | refl => rfl
  | @tail ts u v clock a out before last ih =>
    have known := spent_of_trace before
    have now : endings (ts ++ [⟨clock, u, a, out⟩]) =
        endings ts ++ out.filterMap Output.alive? := by
      simp [endings]
    rw [now, List.count_append, ih]
    rcases (step_change last).verdict with ⟨task, failing, exhausts⟩ | ⟨lasts, -⟩
    · rw [fit_of_failing known failing, exhausts.told, exhausts.spent.exhausted]
      rfl
    · have none_false : (out.filterMap Output.alive?).count false = 0 := by
        refine List.count_eq_zero.2 fun mem => ?_
        have told := lasts.told false mem
        cases told
      rw [none_false, lasts.exhausted]
      rfl

theorem silent_of_mem {h : Handle} {addr : Address} {us : List Turn} {t : Turn}
    (run : Trace (step p) (create h addr) (ts ++ t :: us) o) (mem : false ∈ endings [t]) :
    (∃ o₁, step p t.clock t.before t.action = some (o₁, t.outputs) ∧ o₁.exhausted = true ∧
      o₁.queue = []) ∧ connects (t :: us) = [] ∧ invoked (t :: us) = [] := by
  obtain ⟨v, before, last, later⟩ := run.middle
  rcases (step_change last).verdict with ⟨task, -, exhausts⟩ | ⟨lasts, -⟩
  · obtain ⟨-, unconnected, unsent⟩ := silent_of_spent later exhausts.spent
    refine ⟨⟨v, last, exhausts.spent.exhausted, exhausts.spent.empty⟩, ?_, ?_⟩
    · simpa [connects, exhausts.unconnected] using unconnected
    · simpa [invoked, exhausts.unsent] using unsent
  · have told := lasts.told false (by simpa [endings] using mem)
    cases told

/-- With fewer than `2 ^ 32 - 1` retries, however tasks take turns and drivers answer: the stored
count is the number of attempts that failed since the last delivery, except that it is one behind
while a failed attempt gives up its link, and it never exceeds the number of retries by more than
one. A flush says that the retries are used up if and only if its attempt failed, is the last one
allowed, and the outbox is not detached at that moment. The outbox is exhausted and empty then, and no
link is asked for and nothing sent any more. At most one flush says so. -/
theorem keeps_retry_budget {h : Handle} {addr : Address} (few : p.maxRetries.toNat + 1 < 2 ^ 32)
    (run : Trace (step p) (create h addr) ts o) :
    failedInARow ts = o.failures.toNat + o.isDropping.toNat ∧
    o.failures.toNat ≤ p.maxRetries.toNat + 1 ∧
    (∀ us t vs task, ts = us ++ t :: vs →
      (.flushed task false ∈ t.outputs ↔ t.before.failing? t.action = some task ∧
        failedInARow (us ++ [t]) = p.maxRetries.toNat + 1 ∧ t.before.detached = false)) ∧
    (∀ us t vs, ts = us ++ t :: vs → false ∈ endings [t] →
      (∃ o₁, step p t.clock t.before t.action = some (o₁, t.outputs) ∧ o₁.exhausted = true ∧
        o₁.queue = []) ∧ connects (t :: vs) = [] ∧ invoked (t :: vs) = []) ∧
    (endings ts).count false = o.exhausted.toNat := by
  have budgeted := budgeted_of_trace few run
  refine ⟨budgeted.count, budgeted.bound, ?_, ?_, count_flushed_false run⟩
  · intro us t vs task eq
    subst eq
    obtain ⟨v, before, last, -⟩ := run.middle
    exact mem_flushed_false few (before.tail last)
  · intro us t vs eq mem
    subst eq
    exact silent_of_mem run mem

/-- After a delivery the driver is not reached, refuses the notice and is not reached again, while a
second flush waits for the first. -/
def givenUp : List (Nat × Action) :=
  [(0, .enqueue (sampleNotice "a")), (0, .enqueue (sampleNotice "b")), (1, .call 0 (.flush 1)),
    (2, .answer (.connected (.error .closed))), (200, .call 0 (.flush 200)),
    (201, .answer (.connected (.ok ()))), (202, .answer (.invoked (.ok ()))),
    (203, .answer (.invoked (.error .closed))), (204, .answer .released),
    (400, .call 0 (.flush 400)), (401, .answer (.connected (.error .closed))),
    (600, .call 0 (.flush 600)), (601, .call 1 (.flush 601)),
    (602, .answer (.connected (.error .closed))), (603, .resume),
    (604, .enqueue (sampleNotice "c"))]

theorem keeps_retry_budget_givenUp : ∃ ts o, Trace (step samplePolicy) sampleOutbox ts o ∧
    samplePolicy.maxRetries.toNat + 1 < 2 ^ 32 ∧ delivered ts = [sampleNotice "a"] ∧
    failedInARow ts = 3 ∧ o.failures = 3 ∧ endings ts = [true, true, true, false, true] ∧
    (endings ts).count false = o.exhausted.toNat := by
  have seen : ((play (step samplePolicy) sampleOutbox givenUp).map fun r =>
      (delivered r.1, failedInARow r.1, r.2.failures, endings r.1)) =
      some ([sampleNotice "a"], 3, 3, [true, true, true, false, true]) := by
    decide
  obtain ⟨⟨ts, o⟩, played, eq⟩ := Option.map_eq_some_iff.1 seen
  obtain ⟨delivered_eq, eq⟩ := Prod.mk.inj eq
  obtain ⟨failed_eq, eq⟩ := Prod.mk.inj eq
  obtain ⟨failures_eq, endings_eq⟩ := Prod.mk.inj eq
  have run := trace_of_play played
  have few : samplePolicy.maxRetries.toNat + 1 < 2 ^ 32 := by decide
  exact ⟨ts, o, run, few, delivered_eq, failed_eq, failures_eq, endings_eq,
    (keeps_retry_budget few run).2.2.2.2⟩

end SessionCourier.Outbox
