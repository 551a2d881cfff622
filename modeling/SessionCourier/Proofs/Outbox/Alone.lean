import SessionCourier.Delivery.Shard.Step
import SessionCourier.Proofs.Outbox.Change

set_option autoImplicit false

namespace SessionCourier.Outbox

variable {p : Policy} {clock task now : Nat} {o o' : Outbox} {a : Action} {out : List Output}
  {holder : Option (Nat × Stage)}

def Stage.isClosing : Stage → Bool
  | .closing _ => true
  | _ => false

/-- After a step of a job the lock is free if the job is over. Otherwise the job has it, and
`closing` says whether the job is a close. -/
def Rests (closing : Bool) (o : Outbox) (out : List Output) : Prop :=
  match Shard.over? out with
  | none => ∃ held, o.holder = some held ∧ held.2.isClosing = closing
  | some _ => o.holder = none

/-- A flush or an answer to one changes neither what the outbox is nor who may use it. -/
structure Works (closing : Bool) (o o' : Outbox) (out : List Output) : Prop where
  handle : o'.handle = o.handle
  detached : o'.detached = o.detached
  closed : o'.closed = o.closed
  waiting : o'.waiting = o.waiting
  rests : Rests closing o' out

theorem Goes.rests (h : o.Goes clock task now holder out) :
    Rests false { o with holder := holder } out := by
  cases h with
  | ended => rfl
  | sends | connects => exact ⟨_, rfl, rfl⟩

theorem Fails.works {head : Notice} {f : Failure} (h : o.Fails p clock task now head f o' out) :
    Works false o o' out := by
  cases h <;> exact ⟨rfl, rfl, rfl, rfl, rfl⟩

theorem over_after {h : Metrics.Happening} {e : Log.Event} {recovered : Prop}
    [Decidable recovered] :
    Shard.over? (Output.count h :: (if recovered then [Output.log e] else []) ++ out) =
      Shard.over? out := by
  split <;> rfl

theorem flush_works (free : o.holder = none) (alone : o.waiting = [])
    (h : step p clock o (.call task (.flush now)) = some (o', out)) :
    Works false o o' out ∧ (o.closed = true → o' = o) := by
  cases step_change h with
  | skips => exact ⟨⟨rfl, rfl, rfl, rfl, free⟩, fun _ => rfl⟩
  | queues _ busy => exact absurd ⟨free, alone⟩ busy
  | calls asked _ _ enters =>
    obtain ⟨fit, usable⟩ := asked
    refine ⟨?_, fun shut => by simp [usable] at shut⟩
    cases enters with
    | waits => exact ⟨rfl, rfl, rfl, rfl, rfl⟩
    | flushes _ goes => exact ⟨rfl, rfl, rfl, rfl, goes.rests⟩

theorem close_works (free : o.holder = none) (alone : o.waiting = []) (usable : o.closed = false)
    (h : step p clock o (.call task .close) = some (o', out)) :
    o'.handle = o.handle ∧ o'.detached = true ∧ o'.closed = true ∧ o'.link = none ∧
      o'.waiting = [] ∧ Rests true o' out := by
  cases step_change h with
  | repeats ended => simp [usable] at ended
  | queues _ busy => exact absurd ⟨free, alone⟩ busy
  | calls asked _ _ enters =>
    cases asked
    cases enters with
    | shuts bare => exact ⟨rfl, rfl, rfl, bare, alone, free⟩
    | releases => exact ⟨rfl, rfl, rfl, rfl, alone, _, rfl, rfl⟩

theorem answer_works {held : Nat × Stage} {x : Answer} (holds : o.holder = some held)
    (h : step p clock o (.answer x) = some (o', out)) :
    Works held.2.isClosing o o' out ∧ (held.2.isClosing = true → o'.link = o.link) := by
  cases step_change h with
  | connected has =>
    obtain rfl := Option.some_inj.1 (has.symm.trans holds)
    exact ⟨⟨rfl, rfl, rfl, rfl, _, rfl, rfl⟩, nofun⟩
  | unreached has fails =>
    obtain rfl := Option.some_inj.1 (has.symm.trans holds)
    exact ⟨fails.works, nofun⟩
  | delivered has goes =>
    obtain rfl := Option.some_inj.1 (has.symm.trans holds)
    refine ⟨⟨rfl, rfl, rfl, rfl, ?_⟩, nofun⟩
    rw [Rests, over_after]
    exact goes.rests
  | rejected has =>
    obtain rfl := Option.some_inj.1 (has.symm.trans holds)
    exact ⟨⟨rfl, rfl, rfl, rfl, _, rfl, rfl⟩, nofun⟩
  | dropped has fails =>
    obtain rfl := Option.some_inj.1 (has.symm.trans holds)
    exact ⟨fails.works, nofun⟩
  | closes has =>
    obtain rfl := Option.some_inj.1 (has.symm.trans holds)
    exact ⟨⟨rfl, rfl, rfl, rfl, rfl⟩, fun _ => rfl⟩

theorem enqueue_eq (o : Outbox) (n : Notice) :
    (o.enqueue n).1 = { o with queue := (o.enqueue n).1.queue } := by
  unfold enqueue
  split <;> rfl

end SessionCourier.Outbox
