import SessionCourier.Proofs.Outbox.Order
import SessionCourier.Proofs.Outbox.Retries

set_option autoImplicit false

namespace SessionCourier.Outbox

variable {p : Policy} {clock task now : Nat} {o o' : Outbox} {a : Action} {out : List Output}
  {holder : Option (Nat × Stage)} {ts : List Turn}

theorem Goes.idle (h : o.Goes clock task now holder out) (finished : Shard.over? out ≠ none) :
    o.detached = true ∨ o.queue = [] := by
  cases h with
  | ended idle => exact idle
  | sends | connects => exact absurd rfl finished

/-- What a flush that is over at this moment leaves of an outbox. -/
inductive Leaves (p : Policy) (clock : Nat) (o : Outbox) : Outbox → Prop where
  | useless (ended : o.exhausted = true ∨ o.closed = true) : Leaves p clock o o
  | spent {o' : Outbox} (exhausted : o'.exhausted = true) : Leaves p clock o o'
  | nothing {o' : Outbox} (idle : o'.detached = true ∨ o'.queue = []) : Leaves p clock o o'
  | early {o' : Outbox} {due : Nat} (next : o'.nextAttempt = some due) (later : clock < due) :
      Leaves p clock o o'
  | failed {o' : Outbox} {due : Nat} (next : o'.nextAttempt = some due)
      (later : clock + p.delay o'.failures ≤ due) : Leaves p clock o o'

theorem Fails.leaves {head : Notice} {f : Failure} (h : o.Fails p clock task now head f o' out) :
    o.Leaves p clock o' := by
  cases h with
  | abandons gone => exact .nothing (.inl gone)
  | exhausts => exact .spent rfl
  | retries => exact .failed rfl (Nat.add_le_add_right (Nat.le_max_right now clock) _)

theorem Change.leaves_of_over (h : Change p clock o a o' out)
    (flushes : (∃ task, a = .call task (.flush clock)) ∨ o.isAttempting = true)
    (finished : Shard.over? out ≠ none) : o.Leaves p clock o' := by
  have called (rests : o.isAttempting = false) : ∃ task, a = .call task (.flush clock) :=
    flushes.resolve_right (by simp [rests])
  cases h with
  | accepts | refuses | detaches | queues | connected | rejected => exact absurd rfl finished
  | skips ended => exact .useless ended
  | repeats closed => exact .useless (.inr closed)
  | calls _ free _ enters =>
    obtain ⟨_, eq⟩ := called (by rw [isAttempting, free]; rfl)
    cases eq
    cases enters with
    | waits next early => exact .early next early
    | flushes _ goes => exact .nothing (goes.idle finished)
  | resumes free =>
    obtain ⟨_, eq⟩ := called (by rw [isAttempting, free]; rfl)
    cases eq
  | unreached _ fails | dropped _ fails => exact fails.leaves
  | delivered _ goes =>
    rw [over_after] at finished
    exact .nothing (goes.idle finished)
  | closes held =>
    obtain ⟨_, eq⟩ := called (by rw [isAttempting, held]; rfl)
    cases eq

theorem Leaves.waits (h : o.Leaves p clock o') (shut : o.closed = true → o.detached = true)
    (empty : o'.accepts = false → o'.queue = []) : o'.queue = [] ∨ o'.nextAttempt ≠ none := by
  have gone (dead : o'.detached = true ∨ o'.exhausted = true) : o'.queue = [] :=
    empty (by rcases dead with dead | dead <;> simp [Outbox.accepts, dead])
  cases h with
  | useless ended => exact .inl (gone (ended.symm.imp_left shut))
  | spent exhausted => exact .inl (gone (.inr exhausted))
  | nothing idle => exact .inl (idle.elim (fun dead => gone (.inl dead)) id)
  | early next | failed next => exact .inr (by simp [next])

/-- Why a flush that comes at this moment finds nothing to do. -/
inductive Idle (now : Nat) (o : Outbox) : Prop where
  | useless (ended : o.exhausted = true ∨ o.closed = true)
  | nothing (idle : o.detached = true ∨ o.queue = [])
  | early {due : Nat} (next : o.nextAttempt = some due) (later : now < due)

theorem Leaves.idle (h : o.Leaves p clock o') (positive : ∀ failures, 0 < p.delay failures) :
    o'.Idle clock := by
  cases h with
  | useless ended => exact .useless ended
  | spent exhausted => exact .useless (.inl exhausted)
  | nothing idle => exact .nothing idle
  | early next later => exact .early next later
  | failed next later =>
    exact .early next (Nat.lt_of_lt_of_le (Nat.lt_add_of_pos_right (positive _)) later)

theorem Idle.enter (h : o.Idle now) (usable : ¬(o.exhausted = true ∨ o.closed = true))
    (free : o.holder = none) : o.enter clock task (.flush now) = (o, [.flushed task true]) := by
  have finish : o.finish task true = (o, [.flushed task true]) := by rw [Outbox.finish, ← free]
  cases h with
  | useless ended => exact absurd ended usable
  | nothing idle =>
    have attempt : o.attempt clock task now = o.finish task true := by
      rcases idle with gone | empty
      · simp [Outbox.attempt, gone]
      · simp [Outbox.attempt, empty]
    rw [Outbox.enter, attempt, ite_self, finish]
  | early next later => simpa [Outbox.enter, next, later] using finish

theorem Idle.flush (h : o.Idle now) (free : o.holder = none) (alone : o.waiting = []) :
    step p clock o (.call task (.flush now)) = some (o, [.flushed task true]) := by
  by_cases ended : o.exhausted = true ∨ o.closed = true
  · simp [step, call, ended]
  · have enter : o.enter clock task (.flush now) = (o, [.flushed task true]) :=
      h.enter ended free
    simp only [not_or, Bool.not_eq_true] at ended
    simp [step, call, acquire, ended, free, alone, enter]

structure Untroubled (o : Outbox) : Prop where
  fit : o.exhausted = false
  ready : o.nextAttempt = none
  fine : o.isDropping = false

namespace Untroubled

theorem goes (h : Untroubled o) (g : o.Goes clock task now holder out) :
    Untroubled { o with holder := holder } := by
  cases g <;> exact ⟨h.fit, h.ready, rfl⟩

theorem enters {job : Job} (h : Untroubled o) (e : o.Enters clock task job o' out) :
    Untroubled o' := by
  cases e with
  | waits | releases => exact ⟨h.fit, h.ready, rfl⟩
  | flushes _ g => exact h.goes g
  | shuts => exact h

theorem asked {job : Job} (h : Untroubled o) (e : o.Asked job o') : Untroubled o' := by
  cases e with
  | flush => exact h
  | close => exact ⟨h.fit, h.ready, h.fine⟩

theorem step (h : Untroubled o) (c : Change p clock o a o' out) (well : fails a = false) :
    Untroubled o' := by
  cases c with
  | accepts | detaches => exact ⟨h.fit, h.ready, h.fine⟩
  | refuses | skips | repeats => exact h
  | queues asked =>
    have asked := h.asked asked
    exact ⟨asked.fit, asked.ready, asked.fine⟩
  | calls asked _ _ enters => exact (h.asked asked).enters enters
  | @resumes task job rest o₂ out _ _ enters =>
    have waited : Untroubled { o with waiting := rest } := ⟨h.fit, h.ready, h.fine⟩
    exact waited.enters enters
  | connected => exact ⟨h.fit, h.ready, rfl⟩
  | delivered _ goes =>
    have popped : Untroubled { o with
        queue := o.queue.tail, failures := 0, nextAttempt := none } := ⟨h.fit, rfl, h.fine⟩
    exact popped.goes goes
  | unreached | rejected => cases well
  | dropped held =>
    have fine := h.fine
    rw [isDropping, held] at fine
    cases fine
  | closes => exact ⟨h.fit, h.ready, rfl⟩

end Untroubled

theorem untroubled_of_trace {h : Handle} {addr : Address}
    (run : Trace (step p) (create h addr) ts o) (well : ∀ t ∈ ts, fails t.action = false) :
    Untroubled o := by
  induction run with
  | refl => exact ⟨rfl, rfl, rfl⟩
  | tail before last ih =>
    have before_well := ih fun t mem => well t (List.mem_append_left _ mem)
    have last_well := well _ (List.mem_append_right _ (List.mem_singleton_self _))
    exact before_well.step (step_change last) last_well

end SessionCourier.Outbox
