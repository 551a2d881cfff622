import SessionCourier.Proofs.Outbox.Flush
import SessionCourier.Proofs.Shard.Escalation

set_option autoImplicit false

/-!
# The order of a pass

The worker flushes the live outboxes one after the other, in any order. Here a pass runs from its
survey until the worker waits again, while no one else does anything and every answer comes at once:
the clock stands still. A driver answers by what the outboxes at its address said. As long as no two
live outboxes have the same address, each of them goes through the same turns in whichever order they
are taken, and whatever becomes of the others.
-/

namespace SessionCourier.Shard

/-- Whoever answers the shard: a driver at each address, and the cluster manager. -/
structure World where
  drivers : Address → Outbox.Replies
  manager : List Output → Handle → Except ManagerFailure Unit

def addressOf (s : Shard) (id : Nat) : Option Address := (s.outbox? id).map (·.address)

def heardAt (s : Shard) (addr : Address) (heard : List Output) : List Outbox.Output :=
  (heard.filterMap Output.outbox?).filterMap fun x =>
    if s.addressOf x.1 = some addr then some x.2 else none

namespace World

/-- The worker goes on with its pass, or gets the answer that it waits for. -/
def next (w : World) (clock : Nat) (heard : List Output) (s : Shard) : Option (Nat × Action) :=
  match s.stage with
  | .ready (.pass _) => some (clock, .move .proceed)
  | .busy id (.pass _) =>
    s.outbox? id >>= fun o => o.holder.map fun held =>
      (clock, .move (.answer ((w.drivers o.address).answer (s.heardAt o.address heard) held.2)))
  | .escalating h _ => some (clock, .move (.ended (w.manager heard h)))
  | _ => none

end World

/-- A pass that takes the live outboxes in the given order, until the worker waits again. -/
inductive Pass (p : Policy) (w : World) (clock : Nat) (order : List Nat) (s : Shard) :
    List Turn → Shard → Prop where
  | surveyed {u s' : Shard} {out heard : List Output} {us : List Turn} {since : Nat} {handed : Bool}
      (begun : step p clock s (.move (.survey order)) = some (u, out))
      (rest : Course (step p) (w.next clock) out u us heard s')
      (waits : s'.stage = .parked since handed) :
      Pass p w clock order s (⟨clock, s, .move (.survey order), out⟩ :: us) s'

variable {p : Policy} {w : World} {clock id : Nat} {s s' : Shard} {out heard : List Output}
  {o o' : Outbox} {said : List Outbox.Output} {left : List Nat} {m : Move} {b : Outbox.Action}
  {ts us : List Turn} {ots : List Outbox.Turn} {addr : Address}

theorem World.next_parked (w : World) {since : Nat} {handed : Bool}
    (waits : s.stage = .parked since handed) : w.next clock heard s = none := by
  rw [next, waits]

theorem Pass.unique {w : World} {order : List Nat} (h : Pass p w clock order s ts s')
    {u : Shard} (h' : Pass p w clock order s us u) : us = ts ∧ u = s' := by
  cases h with
  | surveyed begun rest waits =>
    cases h' with
    | surveyed begun' rest' waits' =>
      cases begun.symm.trans begun'
      obtain ⟨rfl, rfl⟩ := rest.unique (w.next_parked waits) rest' (w.next_parked waits')
      exact ⟨rfl, rfl⟩

theorem outbox_moved (has : s.outbox? id = some o) (o' : Outbox) (stage : Stage) (j : Nat) :
    outbox? { s with outboxes := s.outboxes.set id o', stage := stage } j =
      if j = id then some o' else s.outbox? j := outbox_set has o' j

theorem addressOf_set (has : s.outbox? id = some o) (same : o'.address = o.address)
    (stage : Stage) :
    addressOf { s with outboxes := s.outboxes.set id o', stage := stage } = s.addressOf := by
  funext j
  rw [addressOf, addressOf, outbox_moved has]
  split
  · rename_i eq
    rw [eq, has, Option.map_some, Option.map_some, same]
  · rfl

theorem heardAt_congr (same : s'.addressOf = s.addressOf) : s'.heardAt = s.heardAt := by
  funext addr heard
  rw [heardAt, heardAt, same]

@[simp] theorem heardAt_append (s : Shard) (addr : Address) (heard out : List Output) :
    s.heardAt addr (heard ++ out) = s.heardAt addr heard ++ s.heardAt addr out := by
  rw [heardAt, List.filterMap_append, List.filterMap_append]
  rfl

theorem heardAt_of_outbox (has : s.outbox? id = some o) (said : List Outbox.Output) :
    s.heardAt o.address (said.map (.outbox id)) = said := by
  have at_ : s.addressOf id = some o.address := by rw [addressOf, has, Option.map_some]
  rw [heardAt, outputs_of_outbox, List.filterMap_map]
  exact (List.filterMap_congr fun _ _ => if_pos at_).trans List.filterMap_some

def request (t : Outbox.Turn) : List (Handle × Status) :=
  if over? t.outputs = some false then [(t.before.handle, .timedOut)] else []

def requests (ts : List Outbox.Turn) : List (Handle × Status) := ts.flatMap request

def tally (ts : List Outbox.Turn) : List Metrics.Happening :=
  ts.flatMap fun t =>
    t.outputs.filterMap Outbox.Output.happening? ++ (request t).map fun _ => .timedOut

/-- The turns `rs` of the shard are the turns `ots` of one outbox. -/
structure Round (id : Nat) (ots : List Outbox.Turn) (rs : List Turn) : Prop where
  own : turnsOf id rs = ots
  others : ∀ j, j ≠ id → turnsOf j rs = []
  spoke : ∀ x ∈ (rs.flatMap (·.outputs)).filterMap Output.outbox?, x.1 = id
  happened : SessionCourier.said Output.happening? rs = tally ots
  ended : SessionCourier.said Output.ended? rs = requests ots

/-- With this move the worker takes the action of the outbox. -/
structure Takes (p : Policy) (w : World) (clock : Nat) (heard : List Output) (s : Shard) (m : Move)
    (id : Nat) (left : List Nat) (o : Outbox) (b : Outbox.Action) : Prop where
  has : s.outbox? id = some o
  next : w.next clock heard s = some (clock, .move m)
  steps : step p clock s (.move m) = s.take p clock id (.pass left) b
  deed : s.deed? clock (.move m) = some ⟨id, o, b⟩

theorem takes_flush (has : s.outbox? id = some o) (at_ : s.stage = .ready (.pass (id :: left))) :
    Takes p w clock heard s .proceed id left o (.call task (.flush clock)) where
  has := has
  next := by rw [World.next, at_]
  steps := by simp only [step, move, at_, proceed]
  deed := by
    have job : s.Job clock .proceed s id (.pass left) (.call task (.flush clock)) := .pass at_
    rw [deed?, job.job]
    exact deedAt_eq_some.2 ⟨rfl, rfl, has⟩

theorem takes_answer (p : Policy) (w : World) (clock : Nat) (heard : List Output)
    {held : Nat × Outbox.Stage} (has : s.outbox? id = some o)
    (at_ : s.stage = .busy id (.pass left)) (holds : o.holder = some held) :
    Takes p w clock heard s
      (.answer ((w.drivers o.address).answer (s.heardAt o.address heard) held.2)) id left o
      (.answer ((w.drivers o.address).answer (s.heardAt o.address heard) held.2)) where
  has := has
  next := by
    rw [World.next, at_]
    simp [has, holds]
  steps := by simp only [step, move, at_]
  deed := by
    have job (x : Outbox.Answer) : s.Job clock (.answer x) s id (.pass left) (.answer x) :=
      .answer at_
    rw [deed?, (job _).job]
    exact deedAt_eq_some.2 ⟨rfl, rfl, has⟩

theorem Takes.settles (takes : Takes p w clock heard s m id left o b)
    (taken : Outbox.step p clock o b = some (o', said)) :
    step p clock s (.move m) = some (s.settle id (.pass left) o' said) := by
  rw [takes.steps, take, takes.has, Option.bind_eq_bind, Option.bind_some, taken]
  rfl

theorem Round.append {rs rs' : List Turn} {ots' : List Outbox.Turn} (h : Round id ots rs)
    (h' : Round id ots' rs') : Round id (ots ++ ots') (rs ++ rs') where
  own := by rw [turnsOf_append, h.own, h'.own]
  others j other := by rw [turnsOf_append, h.others j other, h'.others j other, List.append_nil]
  spoke x mem := by
    rw [List.flatMap_append, List.filterMap_append, List.mem_append] at mem
    exact mem.elim (h.spoke x) (h'.spoke x)
  happened := by rw [said_append, h.happened, h'.happened, tally, tally, tally, List.flatMap_append]
  ended := by
    rw [said_append, h.ended, h'.ended, requests, requests, requests, List.flatMap_append]

theorem Settles.tells {h : Handle} {stage : Stage} {after : List Output} {t : Outbox.Turn}
    (settles : Settles id h said (.pass left) stage after) (spoke : t.outputs = said)
    (handle : t.before.handle = h) :
    after.filterMap Output.ended? = request t ∧
      after.filterMap Output.happening? = (request t).map fun _ => .timedOut := by
  rw [request, spoke, handle]
  cases settles with
  | waits on =>
    rw [on]
    exact ⟨rfl, rfl⟩
  | escalates dead =>
    rw [dead]
    exact ⟨rfl, rfl⟩
  | goesOn ended fine =>
    obtain rfl := fine.resolve_right fun none_left => none_left left rfl
    rw [ended]
    exact ⟨rfl, rfl⟩

/-- A turn of the outbox, after which the worker may speak for itself. -/
theorem Takes.round {stage : Stage} {after : List Output} (takes : Takes p w clock heard s m id left o b)
    (settles : Settles id o.handle said (.pass left) stage after) :
    Round id [⟨clock, o, b, said⟩] [⟨clock, s, .move m, said.map (.outbox id) ++ after⟩] := by
  have spoke : (said.map (Output.outbox id) ++ after).filterMap Output.outbox? = said.map (id, ·) := by
    rw [List.filterMap_append, settles.outputs, List.append_nil, outputs_of_outbox]
  have turn (j : Nat) : turnAt? j ⟨clock, s, .move m, said.map (.outbox id) ++ after⟩ =
      if id = j then some ⟨clock, o, b, said⟩ else none := by
    have plain : (said.map (id, ·)).map (·.2) = said := by
      rw [List.map_map]
      exact List.map_id said
    rw [turnAt_of_deed takes.deed, spoke, plain]
  obtain ⟨ended, happened⟩ := settles.tells (t := ⟨clock, o, b, said⟩) rfl rfl
  refine ⟨?_, fun j other => ?_, fun x mem => ?_, ?_, ?_⟩
  · rw [turnsOf_single, turn, if_pos rfl]
    rfl
  · rw [turnsOf_single, turn, if_neg (Ne.symm other)]
    rfl
  · rw [List.flatMap_singleton, spoke] at mem
    obtain ⟨_, -, rfl⟩ := List.mem_map.1 mem
    rfl
  · rw [said_cons, said_nil, List.filterMap_append, happenings_of_outbox, happened, List.append_nil]
    exact (List.append_nil _).symm
  · rw [said_cons, said_nil, List.filterMap_append, ended_of_outbox, ended, List.append_nil]
    exact (List.append_nil _).symm

theorem Takes.turn (takes : Takes p w clock heard s m id left o b)
    (taken : Outbox.step p clock o b = some (o', said)) :
    ∃ stage after, Settles id o'.handle said (.pass left) stage after ∧
      step p clock s (.move m) =
        some ({ s with outboxes := s.outboxes.set id o', stage := stage },
          said.map (.outbox id) ++ after) ∧
      Round id [⟨clock, o, b, said⟩] [⟨clock, s, .move m, said.map (.outbox id) ++ after⟩] := by
  obtain ⟨stage, after, settles, eq⟩ := settle_settles s id (.pass left) o' said
  have stepped := takes.settles taken
  rw [eq] at stepped
  exact ⟨stage, after, settles, stepped, takes.round ((Outbox.step_change taken).handle ▸ settles)⟩

theorem round_ended (p : Policy) (clock : Nat) {h : Handle} (at_ : s.stage = .escalating h left)
    (result : Except ManagerFailure Unit) :
    ∃ out, step p clock s (.move (.ended result)) =
        some ({ s with stage := .ready (.pass left) }, out) ∧
      Round id [] [⟨clock, s, .move (.ended result), out⟩] := by
  have idle : s.deed? clock (.move (.ended result)) = none := rfl
  have silent (j : Nat) (out : List Output) :
      turnsOf j [⟨clock, s, .move (.ended result), out⟩] = [] := by
    rw [turnsOf_single, turnAt?, turn?, idle]
    rfl
  cases result with
  | ok =>
    refine ⟨[], by rw [step, move, at_], silent id [], fun j _ => silent j [], ?_, rfl, rfl⟩
    exact fun x mem => absurd mem (List.not_mem_nil)
  | error e =>
    refine ⟨[.log (endFailedEvent h e)], by rw [step, move, at_], silent id _,
      fun j _ => silent j _, ?_, rfl, rfl⟩
    exact fun x mem => absurd mem (List.not_mem_nil)

theorem over_of_free (rests : Outbox.Rests false o said) : o.holder = none ↔ over? said ≠ none := by
  unfold Outbox.Rests at rests
  cases ended : over? said with
  | none =>
    rw [ended] at rests
    obtain ⟨held, holds, -⟩ := rests
    simp [holds]
  | some alive =>
    rw [ended] at rests
    simp [rests]

theorem exists_round {heard₁ heard₂ : List Outbox.Output}
    (course : Course (Outbox.step p) ((w.drivers addr).next fun _ => clock) heard₁ o ots heard₂ o')
    (free : o'.holder = none) {o₀ : Outbox} (at_ : o₀.address = addr)
    (takes : Takes p w clock heard s m id left o₀ b)
    (taken : Outbox.step p clock o₀ b = some (o, said)) (rests : Outbox.Rests false o said)
    (hears : s.heardAt addr heard ++ said = heard₁) :
    ∃ rs heard', Course (step p) (w.next clock) heard s rs heard'
        { s with outboxes := s.outboxes.set id o', stage := .ready (.pass left) } ∧
      Round id (⟨clock, o₀, b, said⟩ :: ots) rs := by
  induction course generalizing s heard m o₀ b said with
  | @refl heard₁ o =>
    obtain ⟨stage, after, settles, first, turn⟩ := takes.turn taken
    cases settles with
    | waits on => exact absurd on ((over_of_free rests).1 free)
    | escalates dead =>
      obtain ⟨out, answered, last⟩ := round_ended p clock
        (s := { s with outboxes := s.outboxes.set id o, stage := .escalating o.handle left }) rfl
        (w.manager (heard ++ (said.map (.outbox id) ++ _)) o.handle)
      exact ⟨_, _, .goes takes.next first (.goes rfl answered .refl), turn.append last⟩
    | goesOn => exact ⟨_, _, .goes takes.next first .refl, turn⟩
  | @goes heard₁ heard₂ said' o o₁ o' clock₁ a ots now taken' _ ih =>
    obtain ⟨held, holds, eq⟩ := Option.map_eq_some_iff.1 now
    obtain ⟨rfl, rfl⟩ := Prod.mk.inj eq
    have same := (Outbox.step_change taken).address
    obtain ⟨stage, after, settles, first, turn⟩ := takes.turn taken
    cases settles with
    | escalates dead | goesOn dead =>
      cases holds.symm.trans ((over_of_free rests).2 (by simp [dead]))
    | waits on =>
      -- By now the driver has heard what the outbox said.
      have hears' : heardAt { s with
          outboxes := s.outboxes.set id o, stage := .busy id (.pass left) } o.address
          (heard ++ (said.map (.outbox id) ++ [])) = heard₁ := by
        rw [heardAt_congr (addressOf_set takes.has same _), List.append_nil, heardAt_append,
          same, heardAt_of_outbox takes.has, at_]
        exact hears
      have has : outbox? { s with
          outboxes := s.outboxes.set id o, stage := .busy id (.pass left) } id = some o := by
        rw [outbox_moved takes.has, if_pos rfl]
      have answers := takes_answer p w clock (heard ++ (said.map (.outbox id) ++ [])) has rfl holds
      rw [hears', same, at_] at answers
      obtain ⟨held', holds', fits⟩ : ∃ held, o.holder = some held ∧ held.2.isClosing = false := by
        simpa [Outbox.Rests, on] using rests
      cases holds.symm.trans holds'
      have works := (Outbox.answer_works holds taken').1
      rw [fits] at works
      obtain ⟨rs, heard', course, round⟩ := ih free (same.trans at_) answers taken' works.rests
        (by rw [← hears', same, at_])
      rw [List.set_set] at course
      exact ⟨_, _, .goes takes.next first course, turn.append round⟩

/-- The outboxes that are still to be flushed are free, and their drivers have heard nothing yet. -/
structure Awaits (heard : List Output) (s : Shard) (left : List Nat) : Prop where
  once : left.Nodup
  each : ∀ id ∈ left, ∃ o, s.outbox? id = some o ∧ o.holder = none ∧ o.waiting = [] ∧
    s.heardAt o.address heard = []
  apart : ∀ i ∈ left, ∀ j ∈ left, s.addressOf i = s.addressOf j → i = j

/-- The turns `us` flush the outboxes in `left`, each by itself. -/
structure Passed (p : Policy) (w : World) (clock : Nat) (s : Shard) (left : List Nat)
    (us : List Turn) (s' : Shard) : Prop where
  flushed : ∀ id ∈ left, ∃ o o', s.outbox? id = some o ∧ s'.outbox? id = some o' ∧
    Outbox.Flushes p (w.drivers o.address) (fun _ => clock) task clock o (turnsOf id us) o'
  others : ∀ id, id ∉ left → s'.outbox? id = s.outbox? id ∧ turnsOf id us = []
  rest : s' = { s with
    outboxes := s'.outboxes, permit := false, stage := .parked clock s.permit }
  happened : SessionCourier.said Output.happening? us = left.flatMap fun id => tally (turnsOf id us)
  ended : SessionCourier.said Output.ended? us = left.flatMap fun id => requests (turnsOf id us)

theorem Round.unheard {rs : List Turn} (round : Round id ots rs) (has : s.outbox? id = some o)
    (other : addr ≠ o.address) : s.heardAt addr (rs.flatMap (·.outputs)) = [] := by
  refine List.filterMap_eq_nil_iff.2 fun x mem => if_neg ?_
  rw [round.spoke x mem, addressOf, has, Option.map_some]
  exact fun eq => other (Option.some_inj.1 eq).symm

/-- What the worker said while it flushed one outbox, the drivers of the others did not hear. -/
theorem Awaits.tail {rs : List Turn} {v : Outbox} (awaits : Awaits heard s (id :: left))
    (has : s.outbox? id = some o) (address : v.address = o.address) (round : Round id ots rs) :
    Awaits (heard ++ rs.flatMap (·.outputs))
      { s with outboxes := s.outboxes.set id v, stage := .ready (.pass left) } left := by
  obtain ⟨new, once⟩ := List.nodup_cons.1 awaits.once
  refine ⟨once, fun j mem => ?_, fun i memi j memj same => ?_⟩
  · obtain ⟨o₁, has₁, free, alone, unheard⟩ := awaits.each j (List.mem_cons_of_mem id mem)
    have other : j ≠ id := fun eq => new (eq ▸ mem)
    have apart : o₁.address ≠ o.address := by
      intro eq
      refine other (awaits.apart j (List.mem_cons_of_mem id mem) id List.mem_cons_self ?_)
      rw [addressOf, addressOf, has₁, has, Option.map_some, Option.map_some, eq]
    refine ⟨o₁, by rw [outbox_moved has, if_neg other, has₁], free, alone, ?_⟩
    rw [heardAt_congr (addressOf_set has address _), heardAt_append, unheard,
      round.unheard has apart, List.append_nil]
  · rw [addressOf_set has address] at same
    exact awaits.apart i (List.mem_cons_of_mem id memi) j (List.mem_cons_of_mem id memj) same

theorem Passed.cons {rs : List Turn} {v : Outbox} (has : s.outbox? id = some o) (new : id ∉ left)
    (flushes : Outbox.Flushes p (w.drivers o.address) (fun _ => clock) task clock o ots v)
    (round : Round id ots rs)
    (h : Passed p w clock
      { s with outboxes := s.outboxes.set id v, stage := .ready (.pass left) } left us s') :
    Passed p w clock s (id :: left) (rs ++ us) s' := by
  obtain ⟨own, silent⟩ := h.others id new
  have turns : turnsOf id (rs ++ us) = ots := by
    rw [turnsOf_append, round.own, silent, List.append_nil]
  have same (j : Nat) (mem : j ∈ left) : turnsOf j (rs ++ us) = turnsOf j us := by
    rw [turnsOf_append, round.others j fun eq => new (eq ▸ mem), List.nil_append]
  refine ⟨fun j mem => ?_, fun j absent => ?_, h.rest, ?_, ?_⟩
  · rcases List.mem_cons.1 mem with rfl | mem
    · exact ⟨o, v, has, by rw [own, outbox_moved has, if_pos rfl], turns ▸ flushes⟩
    · obtain ⟨o₁, o₂, has₁, has₂, flushes₁⟩ := h.flushed j mem
      have other : j ≠ id := fun eq => new (eq ▸ mem)
      rw [outbox_moved has, if_neg other] at has₁
      exact ⟨o₁, o₂, has₁, has₂, (same j mem).symm ▸ flushes₁⟩
  · obtain ⟨other, absent⟩ := not_or.1 (List.mem_cons.not.1 absent)
    obtain ⟨kept, idle⟩ := h.others j absent
    rw [kept, outbox_moved has, if_neg other, turnsOf_append, round.others j other, idle]
    exact ⟨rfl, rfl⟩
  · rw [said_append, round.happened, h.happened, List.flatMap_cons, turns,
      List.flatMap_congr fun j mem => by rw [← same j mem]]
  · rw [said_append, round.ended, h.ended, List.flatMap_cons, turns,
      List.flatMap_congr fun j mem => by rw [← same j mem]]

theorem exists_passed_nil (p : Policy) (w : World) (clock : Nat) (heard : List Output)
    (at_ : s.stage = .ready (.pass [])) :
    ∃ us heard' s', Course (step p) (w.next clock) heard s us heard' s' ∧
      Passed p w clock s [] us s' := by
  have parked : step p clock s (.move .proceed) = some (s.park clock, []) := by
    simp only [step, move, at_, proceed]
  have idle : s.deed? clock (.move .proceed) = none := by simp [deed?, job?, at_]
  have silent (j : Nat) : turnsOf j [⟨clock, s, .move .proceed, []⟩] = [] := by
    rw [turnsOf_single, turnAt?, turn?, idle]
    rfl
  have now : w.next clock heard s = some (clock, .move .proceed) := by rw [World.next, at_]
  exact ⟨_, _, _, .goes now parked .refl, List.forall_mem_nil _, fun id _ => ⟨rfl, silent id⟩,
    rfl, rfl, rfl⟩

theorem exists_passed (p : Policy) (w : World) (clock : Nat) (awaits : Awaits heard s left)
    (at_ : s.stage = .ready (.pass left)) :
    ∃ us heard' s', Course (step p) (w.next clock) heard s us heard' s' ∧
      Passed p w clock s left us s' := by
  induction left generalizing s heard with
  | nil => exact exists_passed_nil p w clock heard at_
  | cons id left ih =>
    have new := (List.nodup_cons.1 awaits.once).1
    obtain ⟨o, has, free, alone, unheard⟩ := awaits.each id List.mem_cons_self
    obtain ⟨ots, v, flushes⟩ :=
      Outbox.exists_flush_of_free p (w.drivers o.address) (fun _ => clock) task clock free alone
    have address : v.address = o.address := (Outbox.connects_of_trace flushes.trace).1
    obtain ⟨rs, heard₁, course, round⟩ : ∃ rs heard', Course (step p) (w.next clock) heard s rs heard'
        { s with outboxes := s.outboxes.set id v, stage := .ready (.pass left) } ∧
          Round id ots rs := by
      cases flushes with
      | called call rest ended =>
        exact exists_round rest ended rfl (takes_flush has at_) call
          (Outbox.flush_works free alone call).1.rests (by rw [unheard, List.nil_append])
    have later := course.heard_eq ▸ awaits.tail has address round
    obtain ⟨us, heard₂, s', course', passed⟩ := ih later rfl
    exact ⟨rs ++ us, heard₂, s', course.trans course', passed.cons has new flushes round⟩

section
variable {index : Nat} {order : List Nat}

theorem awaits_of_survey (run : Trace (step p) (create index) ts s)
    (at_ : s.stage = .ready (.drain [])) (apart : (s.live.map fun l => s.addressOf l.2).Nodup)
    (perm : order.Perm (s.live.map (·.2))) :
    Awaits [] { s with stage := .ready (.pass order) } order := by
  have sound := sound_of_trace run
  have once : (s.live.map (·.2)).Nodup := by
    refine List.Nodup.of_map s.addressOf ?_
    rw [List.map_map]
    exact apart
  refine ⟨perm.nodup_iff.2 once, fun id mem => ?_, fun i memi j memj same => ?_⟩
  · obtain ⟨⟨h, j⟩, live, rfl⟩ := List.mem_map.1 (perm.mem_iff.1 mem)
    have lt := sound.valid h j live
    have has : s.outbox? j = some s.outboxes[j] := List.getElem?_eq_getElem lt
    exact ⟨_, has, sound.free has (by simp [at_]), sound.alone j _ has, rfl⟩
  · obtain ⟨l, meml, rfl⟩ := List.mem_map.1 (perm.mem_iff.1 memi)
    obtain ⟨l', meml', rfl⟩ := List.mem_map.1 (perm.mem_iff.1 memj)
    rw [List.inj_on_of_nodup_map apart meml meml' same]

theorem step_survey (p : Policy) (clock : Nat) (at_ : s.stage = .ready (.drain []))
    (perm : order.Perm (s.live.map (·.2))) :
    step p clock s (.move (.survey order)) =
      some ({ s with stage := .ready (.pass order) }, []) := by
  simp [step, move, at_, List.isPerm_iff.2 perm]

theorem exists_pass (w : World) (clock : Nat) (run : Trace (step p) (create index) ts s)
    (at_ : s.stage = .ready (.drain [])) (apart : (s.live.map fun l => s.addressOf l.2).Nodup)
    (perm : order.Perm (s.live.map (·.2))) :
    ∃ us s', Pass p w clock order s us s' ∧ Passed p w clock s order us s' := by
  obtain ⟨us, heard, s', course, passed⟩ :=
    exists_passed p w clock (awaits_of_survey run at_ apart perm) rfl
  have silent (j : Nat) : turnsOf j (⟨clock, s, .move (.survey order), []⟩ :: us) = turnsOf j us :=
    rfl
  have parked : s'.stage = .parked clock s.permit := by rw [passed.rest]
  refine ⟨_, s', .surveyed (step_survey p clock at_ perm) course parked, passed.flushed,
    passed.others, passed.rest, passed.happened, passed.ended⟩

theorem passed_of_pass (run : Trace (step p) (create index) ts s)
    (at_ : s.stage = .ready (.drain [])) (apart : (s.live.map fun l => s.addressOf l.2).Nodup)
    (pass : Pass p w clock order s us s') :
    order.Perm (s.live.map (·.2)) ∧ Passed p w clock s order us s' := by
  have perm : order.Perm (s.live.map (·.2)) := by
    cases pass with
    | surveyed begun =>
      cases step_change begun with
      | surveys _ perm => exact perm
      | works job => cases job
  obtain ⟨us', u, pass', passed⟩ := exists_pass w clock run at_ apart perm
  obtain ⟨rfl, rfl⟩ := pass.unique pass'
  exact ⟨perm, passed⟩

variable {w' : World} {order' : List Nat} {us' : List Turn} {u : Shard} {h : Handle}

theorem Passed.same (pass : Passed p w clock s order us s') (pass' : Passed p w' clock s order' us' u)
    (mem : id ∈ order) (mem' : id ∈ order') (has : s.outbox? id = some o)
    (driver : w.drivers o.address = w'.drivers o.address) :
    s'.outbox? id = u.outbox? id ∧ turnsOf id us = turnsOf id us' := by
  obtain ⟨o₁, v, has₁, then_, flushes⟩ := pass.flushed id mem
  obtain ⟨o₂, v', has₂, then_', flushes'⟩ := pass'.flushed id mem'
  obtain rfl := Option.some_inj.1 (has.symm.trans has₁)
  obtain rfl := Option.some_inj.1 (has.symm.trans has₂)
  rw [← driver] at flushes'
  obtain ⟨turns, rfl⟩ := flushes.unique flushes'
  exact ⟨then_.trans then_'.symm, turns.symm⟩

theorem handle_of_request {v : Outbox} (run : Trace (Outbox.step p) o ots v) {x : Handle × Status}
    (mem : x ∈ requests ots) : x.1 = o.handle := by
  obtain ⟨t, memt, memx⟩ := List.mem_flatMap.1 mem
  obtain ⟨before, after, rfl⟩ := List.append_of_mem memt
  obtain ⟨-, earlier, -, -⟩ := run.middle
  have same : t.before.handle = o.handle :=
    earlier.invariant (P := fun v => v.handle = o.handle)
      (fun last eq => (Outbox.step_change last).handle.trans eq) rfl
  unfold request at memx
  split at memx
  · rw [List.mem_singleton.1 memx]
    exact same
  · cases memx

/-- The ends that are asked for one session depend on the turns of its live outbox alone. -/
theorem Passed.count_ended (sound : Sound s) (pass : Passed p w clock s order us s')
    (pass' : Passed p w' clock s order' us' u) (perm : order.Perm (s.live.map (·.2)))
    (perm' : order'.Perm (s.live.map (·.2))) (live : (h, id) ∈ s.live)
    (turns : turnsOf id us = turnsOf id us') (status : Status) :
    (SessionCourier.said Output.ended? us).count (h, status) =
      (SessionCourier.said Output.ended? us').count (h, status) := by
  have others {w : World} {order : List Nat} {us : List Turn} {s' : Shard} {j : Nat}
      (pass : Passed p w clock s order us s') (perm : order.Perm (s.live.map (·.2)))
      (mem : j ∈ order) (other : j ≠ id) : (requests (turnsOf j us)).count (h, status) = 0 := by
    obtain ⟨o, v, has, -, flushes⟩ := pass.flushed j mem
    obtain ⟨⟨h', j⟩, live', rfl⟩ := List.mem_map.1 (perm.mem_iff.1 mem)
    refine List.count_eq_zero.2 fun asked => other ?_
    have same : h = o.handle := handle_of_request flushes.trace asked
    have same' : h' = o.handle := ((sound.live j o has h').1 live').1
    have known := liveId_of_mem sound.keys live
    rw [same, ← same', liveId_of_mem sound.keys live'] at known
    exact Option.some_inj.1 known
  rw [pass.ended, pass'.ended, ((perm.trans perm'.symm).flatMap_right _).count_eq, List.count_flatMap,
    List.count_flatMap]
  refine congrArg List.sum (List.map_congr_left fun j mem => ?_)
  by_cases same : j = id
  · rw [same, Function.comp_apply, Function.comp_apply, turns]
  · rw [Function.comp_apply, Function.comp_apply, others pass' perm' mem same,
      others pass perm ((perm.trans perm'.symm).mem_iff.2 mem) same]

end

/-- Let the worker be about to take the live outboxes, no two of which have the same address. In each
order there is a pass. Let two passes be made from here in any orders, and let the manager answer what
it likes. A session whose driver is the same in both has the same outbox after both, which went
through the same turns (so the same notices were sent and delivered), and its end was asked for equally
often, whatever the other drivers do. If all drivers are the same, the whole shard is the same, and
what was counted and which ends were asked for is the same up to the order. -/
theorem pass_in_any_order {index : Nat} (run : Trace (step p) (create index) ts s)
    (at_ : s.stage = .ready (.drain [])) (apart : (s.live.map fun l => s.addressOf l.2).Nodup) :
    (∀ w clock order, order.Perm (s.live.map (·.2)) → ∃ us s', Pass p w clock order s us s') ∧
    ∀ w w' clock order order' us us' s' u, Pass p w clock order s us s' →
      Pass p w' clock order' s us' u →
      (∀ h id o, (h, id) ∈ s.live → s.outbox? id = some o →
        w.drivers o.address = w'.drivers o.address →
        s'.outbox? id = u.outbox? id ∧ turnsOf id us = turnsOf id us' ∧
          ∀ status, (SessionCourier.said Output.ended? us).count (h, status) =
            (SessionCourier.said Output.ended? us').count (h, status)) ∧
      ((∀ h id o, (h, id) ∈ s.live → s.outbox? id = some o →
        w.drivers o.address = w'.drivers o.address) →
        s' = u ∧
        (SessionCourier.said Output.happening? us).Perm (SessionCourier.said Output.happening? us') ∧
        (SessionCourier.said Output.ended? us).Perm (SessionCourier.said Output.ended? us')) := by
  refine ⟨fun w clock order perm => ?_, ?_⟩
  · obtain ⟨us, s', pass, -⟩ := exists_pass w clock run at_ apart perm
    exact ⟨us, s', pass⟩
  intro w w' clock order order' us us' s' u pass pass'
  obtain ⟨perm, passed⟩ := passed_of_pass run at_ apart pass
  obtain ⟨perm', passed'⟩ := passed_of_pass run at_ apart pass'
  have sound := sound_of_trace run
  refine ⟨fun h id o live has driver => ?_, fun drivers => ?_⟩
  · have mem : id ∈ s.live.map (·.2) := List.mem_map_of_mem live
    obtain ⟨outbox, turns⟩ :=
      passed.same passed' (perm.mem_iff.2 mem) (perm'.mem_iff.2 mem) has driver
    exact ⟨outbox, turns, passed.count_ended sound passed' perm perm' live turns⟩
  · have same (id : Nat) : s'.outbox? id = u.outbox? id ∧ turnsOf id us = turnsOf id us' := by
      by_cases mem : id ∈ s.live.map (·.2)
      · obtain ⟨⟨h, id⟩, live, rfl⟩ := List.mem_map.1 mem
        obtain ⟨o, -, has, -⟩ := passed.flushed id (perm.mem_iff.2 mem)
        exact passed.same passed' (perm.mem_iff.2 mem) (perm'.mem_iff.2 mem) has
          (drivers h id o live has)
      · obtain ⟨kept, idle⟩ := passed.others id (perm.mem_iff.not.2 mem)
        obtain ⟨kept', idle'⟩ := passed'.others id (perm'.mem_iff.not.2 mem)
        exact ⟨kept.trans kept'.symm, idle.trans idle'.symm⟩
    have outboxes : s'.outboxes = u.outboxes := List.ext_getElem? fun id => (same id).1
    have orders := perm.trans perm'.symm
    refine ⟨?_, ?_, ?_⟩
    · rw [passed.rest, passed'.rest, outboxes]
    · rw [passed.happened, passed'.happened, ← List.flatMap_congr fun j _ => by rw [(same j).2]]
      exact orders.flatMap_right _
    · rw [passed.ended, passed'.ended, ← List.flatMap_congr fun j _ => by rw [(same j).2]]
      exact orders.flatMap_right _

def nextSession : Handle := ⟨"s7", by decide⟩

/-- Two sessions get a notice each, and the worker wakes up. -/
def twoSessions : List (Nat × Action) :=
  [(0, .move .start), (1, .add ⟨"driver", 7000⟩ (Outbox.sampleNotice "a")),
    (2, .add ⟨"driver", 7001⟩ (.deadNode nextSession "a")), (3, .move .wake)]

def bothWaiting : Shard where
  index := 0
  outboxes := [{ Outbox.sampleOutbox with queue := [Outbox.sampleNotice "a"] },
    { Outbox.create nextSession ⟨"driver", 7001⟩ with
      queue := [.deadNode nextSession "a"] }]
  live := [(Outbox.sampleSession, 0), (nextSession, 1)]
  deletions := []
  permit := true
  stage := .ready (.drain [])

def noRetries : Policy := ⟨fun _ => 100, 0⟩

/-- No link opens to the first driver, and the manager does not answer. -/
def oneUnreachable : World where
  drivers addr := ⟨fun _ => if addr.port = 7000 then .error .closed else .ok (), fun _ => .ok ()⟩
  manager _ _ := .error ⟨"timeout"⟩

theorem pass_in_any_order_unreachable : ∃ ts us us' s',
    Trace (step noRetries) (create 0) ts bothWaiting ∧
    Pass noRetries oneUnreachable 4 [0, 1] bothWaiting us s' ∧
    Pass noRetries oneUnreachable 4 [1, 0] bothWaiting us' s' ∧
    SessionCourier.said Output.ended? us' = [(Outbox.sampleSession, .timedOut)] ∧
    Outbox.delivered (turnsOf 1 us') = [.deadNode nextSession "a"] := by
  have seen : (play (step noRetries) (create 0) twoSessions).map (·.2) = some bothWaiting := rfl
  obtain ⟨⟨ts, s⟩, played, rfl⟩ := Option.map_eq_some_iff.1 seen
  have run := trace_of_play played
  have apart : (bothWaiting.live.map fun l => bothWaiting.addressOf l.2).Nodup := by decide
  obtain ⟨passes, same⟩ := pass_in_any_order run rfl apart
  have pass : Pass noRetries oneUnreachable 4 [0, 1] bothWaiting _ _ :=
    .surveyed rfl (.goes rfl rfl (.goes rfl rfl (.goes rfl rfl (.goes rfl rfl (.goes rfl rfl
      (.goes rfl rfl (.goes rfl rfl .refl))))))) rfl
  obtain ⟨us', u, pass'⟩ := passes oneUnreachable 4 [1, 0] (by decide)
  obtain ⟨own, whole⟩ := same _ _ _ _ _ _ _ _ _ pass pass'
  obtain ⟨rfl, -, ended⟩ := whole fun _ _ _ _ _ => rfl
  obtain ⟨-, turns, -⟩ := own nextSession 1 _ (by decide) rfl rfl
  refine ⟨ts, _, us', _, run, pass, pass', List.perm_singleton.1 ended.symm, ?_⟩
  rw [← turns]
  rfl

end SessionCourier.Shard
