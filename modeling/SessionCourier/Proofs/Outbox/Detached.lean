import SessionCourier.Proofs.Outbox.History

set_option autoImplicit false

namespace SessionCourier.Outbox

variable {p : Policy} {clock task now : Nat} {o o' : Outbox} {a : Action} {out : List Output}
  {holder : Option (Nat × Stage)} {ts : List Turn}

def Stage.connecting? : Stage → Option Notice
  | .connecting _ head => some head
  | _ => none

def connecting? (o : Outbox) : Option Notice := o.holder.bind (·.2.connecting?)

theorem connecting_of_idle (idle : o.trying? = none) : o.connecting? = none := by
  cases waits : o.connecting? with
  | none => rfl
  | some head =>
    obtain ⟨⟨task, stage⟩, held, eq⟩ := Option.bind_eq_some_iff.1 waits
    cases stage with
    | connecting => simp [trying?, held, Stage.trying?] at idle
    | invoking | dropping | closing => simp [Stage.connecting?] at eq

def endings (ts : List Turn) : List Bool := said Output.alive? ts

theorem Goes.detached (h : o.Goes clock task now holder out) (gone : o.detached = true) :
    holder = none ∧ out = [.flushed task true] := by
  cases h with
  | ended => exact ⟨rfl, rfl⟩
  | sends live | connects live => simp [gone] at live

theorem Asked.detached {job : Job} (h : o.Asked job o') (gone : o.detached = true) :
    o'.detached = true := by
  cases h with
  | flush => exact gone
  | close => rfl

/-- What is kept and what is never said, once an outbox is detached. -/
structure Quiet (o' : Outbox) (out : List Output) : Prop where
  detached : o'.detached = true
  unconnected : out.filterMap Output.connected? = []
  alive : ∀ alive ∈ out.filterMap Output.alive?, alive = true

theorem Enters.quiet {job : Job} (h : o.Enters clock task job o' out) (gone : o.detached = true) :
    Quiet o' out ∧ out.filterMap Output.invoked? = [] := by
  cases h with
  | waits => exact ⟨⟨gone, rfl, by simp [Output.alive?]⟩, rfl⟩
  | flushes _ goes =>
    obtain ⟨-, rfl⟩ := goes.detached gone
    exact ⟨⟨gone, rfl, by simp [Output.alive?]⟩, rfl⟩
  | shuts | releases => exact ⟨⟨gone, rfl, by simp [Output.alive?]⟩, rfl⟩

theorem Enters.trying {job : Job} (h : o.Enters clock task job o' out) (gone : o.detached = true)
    (free : o.holder = none) : o'.trying? = none := by
  cases h with
  | flushes _ goes =>
    obtain ⟨rfl, -⟩ := goes.detached gone
    rfl
  | shuts => simp [trying?, free]
  | waits | releases => rfl

theorem Fails.quiet {head : Notice} {f : Failure} (h : o.Fails p clock task now head f o' out)
    (gone : o.detached = true) :
    Quiet o' out ∧ out.filterMap Output.invoked? = [] ∧ o'.trying? = none := by
  cases h with
  | abandons => exact ⟨⟨gone, rfl, by simp [Output.alive?]⟩, rfl, rfl⟩
  | exhausts live | retries live => simp [gone] at live

theorem Change.quiet (h : Change p clock o a o' out) (gone : o.detached = true) : Quiet o' out := by
  cases h with
  | accepts live => simp [Outbox.accepts, gone] at live
  | detaches => exact ⟨rfl, rfl, by simp⟩
  | calls asked _ _ enters => exact (enters.quiet (asked.detached gone)).1
  | queues asked => exact ⟨asked.detached gone, rfl, by simp⟩
  | resumes _ _ enters => exact (enters.quiet gone).1
  | unreached _ fails => exact (fails.quiet gone).1
  | dropped _ fails => exact (fails.quiet gone).1
  | delivered _ goes =>
    obtain ⟨rfl, rfl⟩ := goes.detached gone
    refine ⟨gone, ?_, ?_⟩
    · rw [filterMap_after (fun _ => rfl) (fun _ => rfl)]
      rfl
    · rw [filterMap_after (fun _ => rfl) (fun _ => rfl)]
      simp [Output.alive?]
  | refuses | skips | repeats | connected | rejected | closes =>
    exact ⟨gone, rfl, by simp [Output.alive?]⟩

theorem Change.unsent (h : Change p clock o a o' out) (gone : o.detached = true)
    (shut : opens a = false) :
    out.filterMap Output.invoked? = [] ∧
      (o'.connecting? = o.connecting? ∨ o'.connecting? = none) := by
  cases h with
  | calls asked free _ enters =>
    have gone' := asked.detached gone
    have idle := enters.trying gone' (asked.same_holder.trans free)
    exact ⟨(enters.quiet gone').2, .inr (connecting_of_idle idle)⟩
  | resumes free _ enters =>
    exact ⟨(enters.quiet gone).2, .inr (connecting_of_idle (enters.trying gone free))⟩
  | unreached _ fails | dropped _ fails =>
    obtain ⟨-, silent, idle⟩ := fails.quiet gone
    exact ⟨silent, .inr (connecting_of_idle idle)⟩
  | delivered _ goes =>
    obtain ⟨rfl, rfl⟩ := goes.detached gone
    refine ⟨?_, .inr rfl⟩
    rw [filterMap_after (fun _ => rfl) (fun _ => rfl)]
    rfl
  | queues asked => exact ⟨rfl, .inl (by rw [connecting?, connecting?, asked.same_holder])⟩
  | connected => simp [opens] at shut
  | accepts | refuses | detaches | skips | repeats => exact ⟨rfl, .inl rfl⟩
  | rejected | closes => exact ⟨rfl, .inr rfl⟩

theorem Change.sent (h : Change p clock o a o' out) (opened : opens a = true) :
    out.filterMap Output.invoked? = o.connecting?.toList ∧ o.connecting?.isSome = true ∧
      o'.connecting? = none := by
  cases h with
  | @connected task now head held =>
    have waits : o.connecting? = some head := by rw [connecting?, held]; rfl
    rw [waits]
    exact ⟨rfl, rfl, rfl⟩
  | accepts | refuses | detaches | skips | repeats | queues | calls | resumes | unreached |
    delivered | rejected | dropped | closes => simp [opens] at opened

theorem quiet_of_trace (run : Trace (step p) o ts o') (gone : o.detached = true) :
    o'.detached = true ∧ connects ts = [] ∧ ∀ alive ∈ endings ts, alive = true := by
  induction run with
  | refl => exact ⟨gone, rfl, by simp [endings]⟩
  | tail _ last ih =>
    obtain ⟨before, silent, ends⟩ := ih
    have quiet := (step_change last).quiet before
    refine ⟨quiet.detached, by simpa [connects, quiet.unconnected] using silent, ?_⟩
    simp only [endings, said_append, said_cons, said_nil, List.append_nil, List.mem_append]
    rintro alive (earlier | now)
    · exact ends alive earlier
    · exact quiet.alive alive now

/-- The only link that can still open is the one that is waited for, and it takes one notice. -/
theorem invoked_of_trace (run : Trace (step p) o ts o') (gone : o.detached = true) :
    invoked ts = (if 0 < openings ts then o.connecting?.toList else []) ∧
      (o'.connecting? = none ∨ openings ts = 0 ∧ o'.connecting? = o.connecting?) := by
  induction run with
  | refl => exact ⟨rfl, .inr ⟨rfl, rfl⟩⟩
  | @tail ts u v clock a out before last ih =>
    obtain ⟨sends, waits⟩ := ih
    have change := step_change last
    have gone' := (quiet_of_trace before gone).1
    cases opened : opens a with
    | true =>
      obtain ⟨sent, waited, ends⟩ := change.sent opened
      obtain ⟨first, same⟩ : openings ts = 0 ∧ u.connecting? = o.connecting? := by
        rcases waits with none | same
        · simp [none] at waited
        · exact same
      have unsent : invoked ts = [] := by simpa [first] using sends
      refine ⟨?_, .inl ends⟩
      have now : invoked (ts ++ [⟨clock, u, a, out⟩]) = invoked ts ++ o.connecting?.toList := by
        simp [invoked, sent, same]
      simp [now, unsent, opened]
    | false =>
      obtain ⟨silent, rest⟩ := change.unsent gone' opened
      refine ⟨by simpa [opened, invoked, silent] using sends, ?_⟩
      rcases rest with kept | none
      · simpa [opened, kept] using waits
      · exact .inl none

theorem Change.idle (h : Change p clock o a o' out) (gone : o.detached = true)
    (idle : o.trying? = none) : out.filterMap Output.invoked? = [] ∧ o'.trying? = none := by
  cases h with
  | calls asked free _ enters =>
    have gone' := asked.detached gone
    exact ⟨(enters.quiet gone').2, enters.trying gone' (asked.same_holder.trans free)⟩
  | resumes free _ enters => exact ⟨(enters.quiet gone).2, enters.trying gone free⟩
  | queues asked =>
    refine ⟨rfl, ?_⟩
    rw [← idle, trying?, trying?, asked.same_holder]
  | connected held | delivered held | rejected held =>
    rw [trying?, held] at idle
    cases idle
  | unreached _ fails | dropped _ fails => exact (fails.quiet gone).2
  | accepts | refuses | detaches | skips | repeats => exact ⟨rfl, idle⟩
  | closes => exact ⟨rfl, rfl⟩

theorem flush_of_detached (gone : o.detached = true) (free : o.holder = none)
    (alone : o.waiting = []) (now : Nat) :
    step p clock o (.call task (.flush now)) = some (o, [.flushed task true]) := by
  cases o
  simp_all [step, call, acquire, enter, attempt, finish]

/-- After an outbox was detached no link is asked for, every flush ends well, and one that comes when
nobody has the lock changes nothing. A notice is sent only if a link opens that was waited for at
that moment, and then it is the one that the link was for. So nothing more is sent, whatever happens,
exactly when no link was waited for. -/
theorem sends_after_detach (gone : o.detached = true) :
    (∀ ts o', Trace (step p) o ts o' →
      connects ts = [] ∧ (∀ alive ∈ endings ts, alive = true) ∧
      invoked ts = if 0 < openings ts then o.connecting?.toList else []) ∧
    (o.holder = none → o.waiting = [] → ∀ clock task now,
      step p clock o (.call task (.flush now)) = some (o, [.flushed task true])) ∧
    ((∀ ts o', Trace (step p) o ts o' → invoked ts = []) ↔ o.connecting? = none) := by
  refine ⟨?_, fun free alone clock task now => flush_of_detached gone free alone now, ?_, ?_⟩
  · intro ts o' run
    obtain ⟨-, silent, ends⟩ := quiet_of_trace run gone
    exact ⟨silent, ends, (invoked_of_trace run gone).1⟩
  · intro nothing
    by_contra waits
    obtain ⟨head, waits⟩ := Option.ne_none_iff_exists'.1 waits
    obtain ⟨⟨task, stage⟩, held, eq⟩ := Option.bind_eq_some_iff.1 waits
    cases stage with
    | connecting now head' =>
      have opens : step p 0 o (.answer (.connected (.ok ()))) =
          answered p o 0 task (.connecting now head') (.connected (.ok ())) := by
        rw [step, held]
      have sent : [head'] = [] := nothing _ _ (.single (opens.trans rfl))
      cases sent
    | invoking | dropping | closing => simp [Stage.connecting?] at eq
  · intro waits ts o' run
    rw [(invoked_of_trace run gone).1, waits]
    simp

/-- A flush waits for a link when its outbox is detached. -/
def overtaken : List (Nat × Action) :=
  [(0, .enqueue (sampleNotice "a")), (1, .call 0 (.flush 1)), (2, .detach)]

theorem sends_after_detach_overtaken :
    ∃ ts o, Trace (step samplePolicy) sampleOutbox ts o ∧ o.detached = true ∧
      ∀ us o', Trace (step samplePolicy) o us o' → connects us = [] ∧
        invoked us = if 0 < openings us then [sampleNotice "a"] else [] := by
  have seen : ((play (step samplePolicy) sampleOutbox overtaken).map fun r =>
      (r.2.detached, r.2.connecting?)) = some (true, some (sampleNotice "a")) := by
    decide
  obtain ⟨⟨ts, o⟩, played, eq⟩ := Option.map_eq_some_iff.1 seen
  obtain ⟨gone, waits⟩ := Prod.mk.inj eq
  refine ⟨ts, o, trace_of_play played, gone, fun us o' run => ?_⟩
  obtain ⟨silent, -, sent⟩ := (sends_after_detach gone).1 us o' run
  exact ⟨silent, by rw [sent, waits]; rfl⟩

/-- The notice is sent after the outbox was detached, when nothing was in flight. -/
theorem sent_when_detached :
    ∃ ts o us o', Trace (step samplePolicy) sampleOutbox ts o ∧ o.detached = true ∧
      o.inFlight? = none ∧ Trace (step samplePolicy) o us o' ∧
      invoked us = [sampleNotice "a"] := by
  have before : ((play (step samplePolicy) sampleOutbox overtaken).map fun r =>
      (r.2.detached, r.2.inFlight?, (play (step samplePolicy) r.2
        [(3, .answer (.connected (.ok ())))]).map fun r => invoked r.1)) =
      some (true, none, some [sampleNotice "a"]) := by
    decide
  obtain ⟨⟨ts, o⟩, played, eq⟩ := Option.map_eq_some_iff.1 before
  obtain ⟨gone, eq⟩ := Prod.mk.inj eq
  obtain ⟨still, later⟩ := Prod.mk.inj eq
  obtain ⟨⟨us, o'⟩, replayed, sent⟩ := Option.map_eq_some_iff.1 later
  exact ⟨ts, o, us, o', trace_of_play played, gone, still, trace_of_play replayed, sent⟩

end SessionCourier.Outbox
