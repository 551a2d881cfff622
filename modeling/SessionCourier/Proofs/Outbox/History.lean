import SessionCourier.Proofs.Outbox.Change
import SessionCourier.Proofs.Trace

set_option autoImplicit false

namespace SessionCourier.Outbox

abbrev Turn := SessionCourier.Turn Outbox Action Output

namespace Stage

def trying? : Stage → Option Notice
  | .connecting _ head | .invoking _ _ head _ => some head
  | .dropping .. | .closing _ => none

def inFlight? : Stage → Option Notice
  | .invoking _ _ head _ => some head
  | _ => none

end Stage

def trying? (o : Outbox) : Option Notice := o.holder.bind (·.2.trying?)

def inFlight? (o : Outbox) : Option Notice := o.holder.bind (·.2.inFlight?)

theorem trying_of_inFlight {o : Outbox} {n : Notice} (flies : o.inFlight? = some n) :
    o.trying? = some n := by
  obtain ⟨⟨task, stage⟩, held, eq⟩ := Option.bind_eq_some_iff.1 flies
  cases stage with
  | invoking => simpa [trying?, held, Stage.trying?, Stage.inFlight?] using eq
  | connecting | dropping | closing => simp [Stage.inFlight?] at eq

namespace Output

def accepted? : Output → Option Notice
  | .accepted n => some n
  | _ => none

def invoked? : Output → Option Notice
  | .invoke _ n => some n
  | _ => none

def connected? : Output → Option Address
  | .connect a => some a
  | _ => none

def released? : Output → Option Nat
  | .release link => some link
  | _ => none

def alive? : Output → Option Bool
  | .flushed _ alive => some alive
  | _ => none

end Output

def delivers? (o : Outbox) : Action → Option Notice
  | .answer (.invoked (.ok ())) => o.inFlight?
  | _ => none

def opens : Action → Bool
  | .answer (.connected (.ok ())) => true
  | _ => false

variable {ts us : List Turn}

def accepted (ts : List Turn) : List Notice := said Output.accepted? ts

def invoked (ts : List Turn) : List Notice := said Output.invoked? ts

def connects (ts : List Turn) : List Address := said Output.connected? ts

def released (ts : List Turn) : List Nat := said Output.released? ts

def delivered (ts : List Turn) : List Notice := ts.filterMap fun t => t.before.delivers? t.action

def openings (ts : List Turn) : Nat := ts.countP fun t => opens t.action

@[simp] theorem delivered_nil : delivered [] = [] := rfl

@[simp] theorem delivered_append : delivered (ts ++ us) = delivered ts ++ delivered us :=
  List.filterMap_append ..

@[simp] theorem delivered_cons {t : Turn} :
    delivered (t :: ts) = (t.before.delivers? t.action).toList ++ delivered ts := by
  cases h : t.before.delivers? t.action <;> simp [delivered, h]

@[simp] theorem openings_append : openings (ts ++ us) = openings ts + openings us :=
  List.countP_append ..

@[simp] theorem openings_single {t : Turn} :
    openings [t] = if opens t.action = true then 1 else 0 := by
  simp [openings, List.countP_cons]

variable {p : Policy} {clock task now : Nat} {o o' : Outbox} {a : Action} {out : List Output}
  {holder : Option (Nat × Stage)}

theorem filterMap_after {β : Type} {f : Output → Option β} (counts : ∀ h, f (.count h) = none)
    (logs : ∀ e, f (.log e) = none) (h : Metrics.Happening) (e : Log.Event) (recovered : Prop)
    [Decidable recovered] :
    (Output.count h :: (if recovered then [Output.log e] else []) ++ out).filterMap f =
      out.filterMap f := by
  split_ifs <;> simp [counts, logs]

theorem Goes.accepted (h : o.Goes clock task now holder out) :
    out.filterMap Output.accepted? = [] := by
  cases h <;> rfl

theorem Enters.accepted {job : Job} (h : o.Enters clock task job o' out) :
    out.filterMap Output.accepted? = [] := by
  cases h with
  | flushes _ goes => exact goes.accepted
  | waits | shuts | releases => rfl

theorem Fails.accepted {head : Notice} {f : Failure} (h : o.Fails p clock task now head f o' out) :
    out.filterMap Output.accepted? = [] := by
  cases h <;> rfl

theorem Change.accepted (h : Change p clock o a o' out) :
    out.filterMap Output.accepted? =
      match a with
      | .enqueue n => if o.accepts then [n] else []
      | _ => [] := by
  cases h with
  | accepts live => simp [live, Output.accepted?]
  | refuses gone => simp [gone, Output.accepted?]
  | calls _ _ _ enters => exact enters.accepted
  | resumes _ _ enters => exact enters.accepted
  | unreached _ fails => exact fails.accepted
  | dropped _ fails => exact fails.accepted
  | delivered _ goes =>
    rw [filterMap_after (fun _ => rfl) (fun _ => rfl)]
    exact goes.accepted
  | detaches | skips | repeats | queues | connected | rejected | closes => rfl

theorem Change.of_accepted {n : Notice} (h : Change p clock o a o' out)
    (mem : n ∈ out.filterMap Output.accepted?) : a = .enqueue n ∧ o.accepts = true := by
  rw [h.accepted] at mem
  cases a with
  | enqueue n' =>
    cases live : o.accepts with
    | true =>
      obtain rfl : n = n' := by simpa [live] using mem
      exact ⟨rfl, rfl⟩
    | false => simp [live] at mem
  | detach | call | resume | answer => simp at mem

theorem Goes.invoked (h : o.Goes clock task now holder out) :
    out.filterMap Output.invoked? = (holder.bind (·.2.inFlight?)).toList := by
  cases h <;> rfl

theorem Enters.invoked {job : Job} (h : o.Enters clock task job o' out) (free : o.holder = none) :
    out.filterMap Output.invoked? = o'.inFlight?.toList := by
  cases h with
  | flushes _ goes => exact goes.invoked
  | shuts => simp [Output.invoked?, inFlight?, free]
  | waits | releases => rfl

theorem Fails.invoked {head : Notice} {f : Failure} (h : o.Fails p clock task now head f o' out) :
    out.filterMap Output.invoked? = o'.inFlight?.toList := by
  cases h <;> rfl

theorem Asked.same_holder {job : Job} (h : o.Asked job o') : o'.holder = o.holder := by
  cases h <;> rfl

theorem Change.invoked (h : Change p clock o a o' out) :
    out.filterMap Output.invoked? = o'.inFlight?.toList ∨
      (out.filterMap Output.invoked? = [] ∧ o'.holder = o.holder ∧ o.delivers? a = none) := by
  cases h with
  | calls asked free _ enters => exact .inl (enters.invoked (asked.same_holder.trans free))
  | resumes free _ enters => exact .inl (enters.invoked free)
  | unreached _ fails => exact .inl fails.invoked
  | dropped _ fails => exact .inl fails.invoked
  | delivered _ goes =>
    rw [filterMap_after (fun _ => rfl) (fun _ => rfl)]
    exact .inl goes.invoked
  | connected | rejected | closes => exact .inl rfl
  | queues asked => exact .inr ⟨rfl, asked.same_holder, rfl⟩
  | accepts | refuses | detaches | skips | repeats => exact .inr ⟨rfl, rfl, rfl⟩

theorem Change.called_of_invoked {n : Notice} (h : Change p clock o a o' out)
    (mem : n ∈ out.filterMap Output.invoked?) : (∀ m, a ≠ .enqueue m) ∧ a ≠ .detach := by
  cases h with
  | accepts | refuses | detaches => simp [Output.invoked?] at mem
  | skips | repeats | queues | calls | resumes | connected | unreached | delivered | rejected |
    dropped | closes => exact ⟨nofun, nofun⟩

theorem called_of_delivers {n : Notice} (h : o.delivers? a = some n) :
    (∀ m, a ≠ .enqueue m) ∧ a ≠ .detach ∧ o.inFlight? = some n := by
  unfold delivers? at h
  split at h
  · exact ⟨nofun, nofun, h⟩
  · cases h

theorem inFlight_of_trace {h : Handle} {addr : Address}
    (run : Trace (step p) (create h addr) ts o) {n : Notice} (flies : o.inFlight? = some n) :
    (invoked ts).getLast? = some n := by
  induction run generalizing n with
  | refl => simp [create, inFlight?] at flies
  | tail _ last ih =>
    rcases (step_change last).invoked with sent | ⟨silent, held, -⟩
    · simp [invoked, sent, flies]
    · rw [inFlight?, held] at flies
      simpa [invoked, silent] using ih flies

theorem attached_of_accepts (live : o.accepts = true) : o.detached = false := by
  cases gone : o.detached with
  | true => simp [accepts, gone] at live
  | false => rfl

theorem Enters.accepts {job : Job} (h : o.Enters clock task job o' out) :
    o'.accepts = o.accepts := by
  cases h <;> rfl

theorem Asked.gone {job : Job} (h : o.Asked job o') (gone : o.accepts = false) :
    o'.accepts = false := by
  cases h with
  | flush => exact gone
  | close => simp [Outbox.accepts, detach]

theorem Fails.gone {head : Notice} {f : Failure} (h : o.Fails p clock task now head f o' out)
    (gone : o.accepts = false) : o'.accepts = false := by
  cases h with
  | abandons | retries => exact gone
  | exhausts => simp [Outbox.accepts]

theorem Change.gone (h : Change p clock o a o' out) (gone : o.accepts = false) :
    o'.accepts = false := by
  cases h with
  | accepts live => simp [gone] at live
  | calls asked _ _ enters => exact enters.accepts.trans (asked.gone gone)
  | resumes _ _ enters => exact enters.accepts.trans gone
  | queues asked => exact asked.gone gone
  | detaches => simp [Outbox.accepts, detach]
  | unreached _ fails => exact fails.gone gone
  | dropped _ fails => exact fails.gone gone
  | refuses | skips | repeats | connected | delivered | rejected | closes => exact gone

theorem gone_of_trace (run : Trace (step p) o ts o') (gone : o.accepts = false) :
    o'.accepts = false :=
  run.invariant (P := fun o => o.accepts = false) (fun last => (step_change last).gone) gone

theorem Enters.handle {job : Job} (h : o.Enters clock task job o' out) : o'.handle = o.handle := by
  cases h <;> rfl

theorem Asked.handle {job : Job} (h : o.Asked job o') : o'.handle = o.handle := by
  cases h <;> rfl

theorem Fails.handle {head : Notice} {f : Failure} (h : o.Fails p clock task now head f o' out) :
    o'.handle = o.handle := by
  cases h <;> rfl

theorem Change.handle (h : Change p clock o a o' out) : o'.handle = o.handle := by
  cases h with
  | calls asked _ _ enters => exact enters.handle.trans asked.handle
  | resumes _ _ enters => exact enters.handle
  | queues asked => exact asked.handle
  | unreached _ fails => exact fails.handle
  | dropped _ fails => exact fails.handle
  | accepts | refuses | detaches | skips | repeats | connected | delivered | rejected | closes => rfl

theorem Enters.address {job : Job} (h : o.Enters clock task job o' out) :
    o'.address = o.address := by
  cases h <;> rfl

theorem Asked.address {job : Job} (h : o.Asked job o') : o'.address = o.address := by
  cases h <;> rfl

theorem Fails.address {head : Notice} {f : Failure} (h : o.Fails p clock task now head f o' out) :
    o'.address = o.address := by
  cases h <;> rfl

theorem Change.address (h : Change p clock o a o' out) : o'.address = o.address := by
  cases h with
  | calls asked _ _ enters => exact enters.address.trans asked.address
  | resumes _ _ enters => exact enters.address
  | queues asked => exact asked.address
  | unreached _ fails => exact fails.address
  | dropped _ fails => exact fails.address
  | accepts | refuses | detaches | skips | repeats | connected | delivered | rejected | closes => rfl

theorem Goes.connected {addr : Address} (h : o.Goes clock task now holder out)
    (mem : addr ∈ out.filterMap Output.connected?) : addr = o.address := by
  cases h with
  | ended | sends => cases mem
  | connects => exact List.mem_singleton.1 mem

theorem Enters.connected {job : Job} {addr : Address} (h : o.Enters clock task job o' out)
    (mem : addr ∈ out.filterMap Output.connected?) : addr = o.address := by
  cases h with
  | flushes _ goes => exact goes.connected mem
  | waits | shuts | releases => cases mem

theorem Change.connects {addr : Address} (h : Change p clock o a o' out)
    (mem : addr ∈ out.filterMap Output.connected?) : addr = o.address := by
  cases h with
  | calls asked _ _ enters => exact (enters.connected mem).trans asked.address
  | resumes _ _ enters => exact enters.connected mem
  | unreached _ fails | dropped _ fails => cases fails <;> cases mem
  | delivered _ goes =>
    rw [filterMap_after (fun _ => rfl) (fun _ => rfl)] at mem
    exact goes.connected mem
  | accepts | refuses | detaches | skips | repeats | queues | connected | rejected | closes => cases mem

theorem connects_of_trace (run : Trace (step p) o ts o') :
    o'.address = o.address ∧ ∀ addr ∈ connects ts, addr = o.address := by
  induction run with
  | refl => exact ⟨rfl, nofun⟩
  | tail _ last ih =>
    obtain ⟨same, earlier⟩ := ih
    have change := step_change last
    refine ⟨change.address.trans same, fun addr mem => ?_⟩
    rw [connects, said_append, said_cons, said_nil, List.append_nil, List.mem_append] at mem
    rcases mem with before | now
    · exact earlier addr before
    · exact (change.connects now).trans same

def sampleSession : Handle := ⟨"s1", by decide⟩

def samplePolicy : Policy := ⟨fun _ => 100, 2⟩

def sampleOutbox : Outbox := create sampleSession ⟨"driver", 7000⟩

def sampleNotice (node : String) : Notice := .deadNode sampleSession node

end SessionCourier.Outbox
