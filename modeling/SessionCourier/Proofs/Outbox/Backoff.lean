import SessionCourier.Proofs.Outbox.Closing

set_option autoImplicit false

namespace SessionCourier.Outbox

variable {p : Policy} {clock task now due : Nat} {o o' : Outbox} {a : Action} {out : List Output}
  {holder : Option (Nat × Stage)} {ts us : List Turn} {job : Job} {calls : List (Nat × Nat)}

def flushCall? : Action → Option (Nat × Nat)
  | .call task (.flush now) => some (task, now)
  | _ => none

def flushCalls (ts : List Turn) : List (Nat × Nat) := ts.filterMap fun t => flushCall? t.action

@[simp] theorem flushCalls_append : flushCalls (ts ++ us) = flushCalls ts ++ flushCalls us :=
  List.filterMap_append

@[simp] theorem flushCalls_single (t : Turn) :
    flushCalls [t] = (flushCall? t.action).toList := by
  cases h : flushCall? t.action <;> simp [flushCalls, h]

def waitingFlush? : Nat × Job → Option (Nat × Nat)
  | (task, .flush now) => some (task, now)
  | (_, .close) => none

def heldFlush? : Nat × Stage → Option (Nat × Nat)
  | (task, .connecting now _) | (task, .invoking now ..) | (task, .dropping now ..) =>
    some (task, now)
  | (_, .closing _) => none

/-- The flush that goes on with an action, as its task and the moment that it was called with. -/
def flushing? (o : Outbox) : Action → Option (Nat × Nat)
  | .call task (.flush now) => some (task, now)
  | .resume => o.waiting.head? >>= waitingFlush?
  | .answer _ => o.holder >>= heldFlush?
  | _ => none

/-- Every flush that waits for the lock or has it is one of those that were called. -/
structure Called (calls : List (Nat × Nat)) (o : Outbox) : Prop where
  waits : ∀ w ∈ o.waiting, ∀ x, waitingFlush? w = some x → x ∈ calls
  holds : ∀ held, o.holder = some held → ∀ x, heldFlush? held = some x → x ∈ calls

theorem called_create (h : Handle) (addr : Address) : Called [] (create h addr) where
  waits _ mem := by simp [create] at mem
  holds _ held := by simp [create] at held

theorem Goes.holds (h : o.Goes clock task now holder out) (called : (task, now) ∈ calls)
    {held : Nat × Stage} (has : holder = some held) {x : Nat × Nat}
    (flush : heldFlush? held = some x) : x ∈ calls := by
  cases h with
  | ended => cases has
  | sends | connects =>
    cases has
    cases flush
    exact called

namespace Called

theorem frame (h : Called calls o) (waiting : o'.waiting ⊆ o.waiting)
    (holds : ∀ held, o'.holder = some held → ∀ x, heldFlush? held = some x → x ∈ calls) :
    Called calls o' :=
  ⟨fun w mem => h.waits w (waiting mem), holds⟩

theorem enters (h : Called calls o)
    (called : ∀ x, waitingFlush? (task, job) = some x → x ∈ calls)
    (e : o.Enters clock task job o' out) : Called calls o' := by
  cases e with
  | waits => exact h.frame (List.Subset.refl _) nofun
  | flushes _ goes =>
    exact h.frame (List.Subset.refl _) fun held has x flush => goes.holds (called _ rfl) has flush
  | shuts => exact h
  | releases =>
    refine h.frame (List.Subset.refl _) fun held has x flush => ?_
    cases has
    cases flush

theorem asked (h : Called calls o) (e : o.Asked job o') : Called calls o' := by
  cases e with
  | flush => exact h
  | close => exact h.frame (List.Subset.refl _) h.holds

theorem more (h : Called calls o) (later : List (Nat × Nat)) : Called (calls ++ later) o where
  waits w mem x flush := List.mem_append_left _ (h.waits w mem x flush)
  holds held has x flush := List.mem_append_left _ (h.holds held has x flush)

theorem step (h : Called calls o) (c : Change p clock o a o' out) :
    Called (calls ++ (flushCall? a).toList) o' := by
  have h := h.more (flushCall? a).toList
  -- A call of `flush` is one of the calls from now on.
  have new : ∀ task job, a = .call task job → ∀ x, waitingFlush? (task, job) = some x →
      x ∈ calls ++ (flushCall? a).toList := by
    rintro task job rfl x flush
    cases job with
    | flush now => exact List.mem_append_right _ (by simpa [waitingFlush?, flushCall?] using flush.symm)
    | close => cases flush
  cases c with
  | accepts | detaches => exact h.frame (List.Subset.refl _) h.holds
  | refuses | skips | repeats => exact h
  | @queues task job o₁ asked =>
    have asked' := h.asked asked
    refine ⟨fun w mem x flush => ?_, asked'.holds⟩
    rcases List.mem_append.1 mem with old | last
    · exact h.waits w old x flush
    · obtain rfl := List.mem_singleton.1 last
      exact new task job rfl x flush
  | calls asked _ _ enters => exact (h.asked asked).enters (new _ _ rfl) enters
  | @resumes task job rest o₂ out _ first enters =>
    have waited : Called (calls ++ (flushCall? .resume).toList) { o with waiting := rest } :=
      h.frame (by rw [first]; exact List.subset_cons_self _ _) h.holds
    exact waited.enters (h.waits (task, job) (by rw [first]; exact List.mem_cons_self)) enters
  | connected held | rejected held =>
    refine h.frame (List.Subset.refl _) fun held' has x flush => h.holds _ held x ?_
    cases has
    exact flush
  | unreached _ fails | dropped _ fails =>
    refine h.frame (fails.works.waiting ▸ List.Subset.refl _) fun held has => ?_
    cases fails <;> cases has
  | delivered held goes =>
    have called := h.holds _ held _ rfl
    exact h.frame (List.Subset.refl _) fun held' has x flush => goes.holds called has flush
  | closes => exact h.frame (List.Subset.refl _) nofun

theorem flushing (h : Called calls o) {x : Nat × Nat} (flush : o.flushing? a = some x) :
    x ∈ calls ++ (flushCall? a).toList := by
  cases a with
  | call task job =>
    cases job with
    | flush now => exact List.mem_append_right _ (by simpa [flushing?, flushCall?] using flush.symm)
    | close => cases flush
  | resume =>
    obtain ⟨w, first, eq⟩ := Option.bind_eq_some_iff.1 flush
    exact List.mem_append_left _ (h.waits w (List.mem_of_head? first) x eq)
  | answer x' =>
    obtain ⟨held, has, eq⟩ := Option.bind_eq_some_iff.1 flush
    exact List.mem_append_left _ (h.holds held has x eq)
  | enqueue | detach => cases flush

end Called

theorem called_of_trace {h : Handle} {addr : Address} (run : Trace (step p) (create h addr) ts o) :
    Called (flushCalls ts) o := by
  induction run with
  | refl => exact called_create h addr
  | tail _ last ih =>
    rw [flushCalls_append, flushCalls_single]
    exact ih.step (step_change last)

/-- The outbox waits for the moment of the next attempt. -/
structure BacksOff (due : Nat) (o : Outbox) : Prop where
  next : o.nextAttempt = some due
  bare : o.link = none
  free : o.holder = none

theorem Fails.backsOff {head : Notice} {f : Failure} (h : o.Fails p clock task now head f o' out)
    (bare : o.link = none) (left : o'.accepts = true) :
    BacksOff (max now clock + p.delay o'.failures) o' ∧ o'.failures = o.failures + 1 := by
  cases h with
  | abandons gone => simp [Outbox.accepts, gone] at left
  | exhausts => simp [Outbox.accepts] at left
  | retries => exact ⟨⟨rfl, bare, rfl⟩, rfl⟩

theorem backsOff_of_failing {h : Handle} {addr : Address} {v : Outbox}
    (run : Trace (step p) (create h addr) ts o) (change : Change p clock o a v out)
    (failing : o.failing? a = some task) (flush : o.flushing? a = some (task, now))
    (left : v.accepts = true) :
    BacksOff (max now clock + p.delay v.failures) v ∧ v.failures = o.failures + 1 := by
  obtain ⟨now', head, f, rfl, held⟩ | ⟨now', link, head, f, rfl, held⟩ := held_of_failing failing
  · have same : now' = now := by simpa [flushing?, held, heldFlush?] using flush
    have bare : o.link = none := (linked_of_trace run).needs _ held
    cases change with
    | unreached has fails =>
      cases held.symm.trans has
      exact same ▸ fails.backsOff bare left
  · have same : now' = now := by simpa [flushing?, held, heldFlush?] using flush
    have bare : o.link = none :=
      (tidy_of_trace run).bare (by simp [releasing?, held, Stage.releasing?])
    cases change with
    | dropped has fails =>
      cases held.symm.trans has
      exact same ▸ fails.backsOff bare left
    | closes has => cases held.symm.trans has

/-- A step of an outbox that waits, unless it makes the attempt. -/
structure Bides (due : Nat) (o : Outbox) (a : Action) (o' : Outbox) (out : List Output) : Prop where
  still : BacksOff due o'
  failures : o'.failures = o.failures
  unconnected : out.filterMap Output.connected? = []
  unsent : out.filterMap Output.invoked? = []
  /-- A flush that comes too early is over when it has the lock, and lines up if others wait for it. -/
  early : ∀ task now, o.flushing? a = some (task, now) → now < due → o'.queue = o.queue ∧
    (out = [.flushed task true] ∨ a = .call task (.flush now) ∧ o.waiting ≠ [] ∧ out = [] ∧
      o'.waiting = o.waiting ++ [(task, .flush now)])

/-- A flush that comes early enough makes the attempt. There is no link, so it asks for one. -/
def Attempts (due : Nat) (o : Outbox) (a : Action) (out : List Output) : Prop :=
  ∃ task now, o.flushing? a = some (task, now) ∧ due ≤ now ∧ out = [.connect o.address]

theorem Goes.backsOff (h : o.Goes clock task now holder out) (waits : BacksOff due o) :
    BacksOff due { o with holder := holder } ∧ out = [.flushed task true] ∨
      out = [.connect o.address] := by
  cases h with
  | ended => exact .inl ⟨⟨waits.next, waits.bare, rfl⟩, rfl⟩
  | sends _ _ held =>
    rw [waits.bare] at held
    cases held
  | connects => exact .inr rfl

namespace BacksOff

theorem bides_of_other (still : BacksOff due o') (failures : o'.failures = o.failures)
    (unconnected : out.filterMap Output.connected? = [])
    (unsent : out.filterMap Output.invoked? = []) (other : o.flushing? a = none) :
    Bides due o a o' out :=
  ⟨still, failures, unconnected, unsent, fun _ _ flush => by rw [other] at flush; cases flush⟩

theorem asked (h : BacksOff due o) (e : o.Asked job o') : BacksOff due o' := by
  cases e with
  | flush => exact h
  | close => exact ⟨h.next, h.bare, h.free⟩

theorem enters {o₁ : Outbox} (h : BacksOff due o₁) (e : o₁.Enters clock task job o' out)
    (flush : o.flushing? a = waitingFlush? (task, job)) (failures : o₁.failures = o.failures)
    (queue : waitingFlush? (task, job) ≠ none → o₁.queue = o.queue)
    (address : o₁.address = o.address) : Bides due o a o' out ∨ Attempts due o a out := by
  cases e with
  | waits =>
    refine .inl ⟨⟨h.next, h.bare, rfl⟩, failures, rfl, rfl, fun k moment eq _ => ?_⟩
    cases flush.symm.trans eq
    exact ⟨queue nofun, .inl rfl⟩
  | flushes ripe goes =>
    have ripe := ripe due h.next
    rcases goes.backsOff h with ⟨still, rfl⟩ | rfl
    · refine .inl ⟨still, failures, rfl, rfl, fun k moment eq early => ?_⟩
      cases flush.symm.trans eq
      exact absurd ripe (Nat.not_le_of_lt early)
    · exact .inr ⟨task, _, flush, ripe, by rw [address]⟩
  | shuts => exact .inl (bides_of_other h failures rfl rfl flush)
  | releases held =>
    rw [h.bare] at held
    cases held

theorem step (h : BacksOff due o) (c : Change p clock o a o' out) :
    Bides due o a o' out ∨ Attempts due o a out := by
  cases c with
  | accepts | refuses | detaches =>
    exact .inl (bides_of_other ⟨h.next, h.bare, h.free⟩ rfl rfl rfl rfl)
  | skips =>
    refine .inl ⟨h, rfl, rfl, rfl, fun k moment flush _ => ⟨rfl, .inl ?_⟩⟩
    cases flush
    rfl
  | repeats => exact .inl (bides_of_other h rfl rfl rfl rfl)
  | queues asked busy =>
    cases asked with
    | flush =>
      refine .inl ⟨⟨h.next, h.bare, h.free⟩, rfl, rfl, rfl, fun k moment flush _ => ⟨rfl, .inr ?_⟩⟩
      cases flush
      exact ⟨rfl, fun alone => busy ⟨h.free, alone⟩, rfl, rfl⟩
    | close => exact .inl (bides_of_other ⟨h.next, h.bare, h.free⟩ rfl rfl rfl rfl)
  | calls asked _ _ enters =>
    have still := h.asked asked
    cases asked with
    | flush => exact still.enters enters rfl rfl (fun _ => rfl) rfl
    | close => exact still.enters enters rfl rfl (fun other => absurd rfl other) rfl
  | @resumes task job rest o₂ out _ first enters =>
    have waited : BacksOff due { o with waiting := rest } := ⟨h.next, h.bare, h.free⟩
    exact waited.enters enters (by simp [flushing?, first]) rfl (fun _ => rfl) rfl
  | connected held | unreached held | delivered held | rejected held | dropped held
  | closes held =>
    rw [h.free] at held
    cases held

end BacksOff

theorem backsOff_of_trace (run : Trace (Outbox.step p) o ts o') (waits : BacksOff due o)
    (unconnected : connects ts = []) (unsent : invoked ts = []) :
    BacksOff due o' ∧ o'.failures = o.failures := by
  induction run with
  | refl => exact ⟨waits, rfl⟩
  | @tail ts u v clock a out _ last ih =>
    simp only [connects, invoked, said_append, said_cons, said_nil, List.append_nil,
      List.append_eq_nil_iff] at unconnected unsent
    obtain ⟨still, failures⟩ := ih unconnected.1 unsent.1
    rcases still.step (step_change last) with bides | ⟨k, moment, -, -, rfl⟩
    · exact ⟨bides.still, bides.failures.trans failures⟩
    · cases unconnected.2

theorem resume_isSome (free : o.holder = none) (waiting : o.waiting ≠ []) (p : Policy) (clock : Nat) :
    (step p clock o .resume).isSome = true := by
  obtain ⟨w, rest, first⟩ := List.exists_cons_of_ne_nil waiting
  simp [step, free, first]

/-- Whatever the delays are and however tasks take turns: let an attempt of a flush that was called
with `now` fail when the clock reads `t.clock`, and leave an outbox that still accepts notices. The
next attempt is due the delay for the count of failures after the later of the two moments. As long as
no attempt was made since, this moment, the count and the link, which is given up, stay as they are.
Only a flush that was called with this moment or a later one makes an attempt. With an earlier one a
flush ends well, and changes nothing: at once, or as soon as it has the lock if it has to wait in line;
the line moves on, for nobody has the lock. -/
theorem waits_out_backoff {h : Handle} {addr : Address} {t : Turn} {v : Outbox}
    (run : Trace (step p) (create h addr) (ts ++ [t]) v)
    (failing : t.before.failing? t.action = some task)
    (flush : t.before.flushing? t.action = some (task, now)) (left : v.accepts = true) :
    (task, now) ∈ flushCalls ts ∧ v.failures = t.before.failures + 1 ∧
    ∀ us w, Trace (step p) v us w → connects us = [] → invoked us = [] →
      w.nextAttempt = some (max now t.clock + p.delay v.failures) ∧ w.failures = v.failures ∧
      w.link = none ∧ (w.waiting ≠ [] → ∀ clock, (step p clock w .resume).isSome = true) ∧
      ∀ clock a w' out, step p clock w a = some (w', out) →
        (out.filterMap Output.connected? ≠ [] ∨ out.filterMap Output.invoked? ≠ [] →
          ∃ task' now', w.flushing? a = some (task', now') ∧
            max now t.clock + p.delay v.failures ≤ now' ∧
            (task', now') ∈ flushCalls (ts ++ us) ++ (flushCall? a).toList) ∧
        ∀ task' now', w.flushing? a = some (task', now') →
          now' < max now t.clock + p.delay v.failures →
          (out = [.flushed task' true] ∨
            a = .call task' (.flush now') ∧ w.waiting ≠ [] ∧ out = [] ∧
              w'.waiting = w.waiting ++ [(task', .flush now')]) ∧
          w'.queue = w.queue ∧ w'.link = w.link ∧ w'.failures = w.failures ∧
          w'.nextAttempt = w.nextAttempt := by
  obtain ⟨before, last⟩ := run.of_snoc
  have uncalled : flushCall? t.action = none := by
    obtain ⟨_, _, _, eq, -⟩ | ⟨_, _, _, _, eq, -⟩ := held_of_failing failing
    all_goals
      rw [eq]
      rfl
  obtain ⟨waits, count⟩ := backsOff_of_failing before (step_change last) failing flush left
  have called := (called_of_trace before).flushing flush
  rw [uncalled, Option.toList_none, List.append_nil] at called
  refine ⟨called, count, fun us w later unconnected unsent => ?_⟩
  obtain ⟨still, failures⟩ := backsOff_of_trace later waits unconnected unsent
  refine ⟨still.next, failures, still.bare, fun line clock => resume_isSome still.free line p clock,
    fun clock a w' out taken => ?_⟩
  have known := called_of_trace (run.append later)
  have same : flushCalls (ts ++ [t] ++ us) = flushCalls (ts ++ us) := by
    rw [flushCalls_append, flushCalls_append, flushCalls_single, uncalled, Option.toList_none,
      List.append_nil, flushCalls_append]
  rw [same] at known
  rcases still.step (step_change taken) with bides | ⟨k, moment, eq, ripe, rfl⟩
  · refine ⟨fun made => ?_, fun k moment eq early => ?_⟩
    · rcases made with connected | sent
      · exact absurd bides.unconnected connected
      · exact absurd bides.unsent sent
    · obtain ⟨queue, ends⟩ := bides.early k moment eq early
      exact ⟨ends, queue, bides.still.bare.trans still.bare.symm, bides.failures,
        bides.still.next.trans still.next.symm⟩
  · refine ⟨fun _ => ⟨k, moment, eq, ripe, known.flushing eq⟩, fun k' moment' eq' early => ?_⟩
    cases eq.symm.trans eq'
    exact absurd ripe (Nat.not_le_of_lt early)

/-- A second flush waits for the lock while the first loses its link, and a second notice is added. -/
def broken : List (Nat × Action) :=
  [(0, .enqueue (sampleNotice "a")), (1, .call 0 (.flush 1)), (2, .answer (.connected (.ok ()))),
    (3, .call 1 (.flush 3)), (4, .enqueue (sampleNotice "b")),
    (5, .answer (.invoked (.error .closed)))]

def unlinked : Outbox :=
  { sampleOutbox with
    queue := ["a", "b"].map sampleNotice
    opened := 1
    holder := some (0, .dropping 1 0 (sampleNotice "a") .closed)
    waiting := [(1, .flush 3)] }

theorem waits_out_backoff_broken : ∃ ts t v, Trace (step samplePolicy) sampleOutbox (ts ++ [t]) v ∧
    t.before.failing? t.action = some 0 ∧ t.before.flushing? t.action = some (0, 1) ∧
    v.accepts = true ∧ v.queue = ["a", "b"].map sampleNotice ∧ v.nextAttempt = some 140 ∧
    ∃ w, step samplePolicy 200 v .resume = some (w, [.flushed 1 true]) ∧ w.queue = v.queue := by
  have seen : (play (step samplePolicy) sampleOutbox broken).map (·.2) = some unlinked := by
    decide
  obtain ⟨⟨ts, o⟩, played, rfl⟩ := Option.map_eq_some_iff.1 seen
  have failed : (step samplePolicy 40 unlinked (.answer .released)).map (·.1) =
      some { unlinked with failures := 1, nextAttempt := some 140, holder := none } := by
    decide
  obtain ⟨⟨v, out⟩, last, rfl⟩ := Option.map_eq_some_iff.1 failed
  have run := (trace_of_play played).tail last
  obtain ⟨-, -, later⟩ := waits_out_backoff run rfl rfl rfl
  obtain ⟨-, -, -, resumes, steps⟩ := later [] _ .refl rfl rfl
  obtain ⟨⟨w, out'⟩, resumed⟩ := Option.isSome_iff_exists.1 (resumes (by simp [unlinked]) 200)
  have early : 3 < max 1 40 + samplePolicy.delay 1 := by decide
  obtain ⟨ends | ⟨call, -⟩, same, -⟩ := (steps 200 .resume w out' resumed).2 1 3 rfl early
  · exact ⟨ts, _, _, run, rfl, rfl, rfl, rfl, rfl, w, ends ▸ resumed, same⟩
  · cases call

end SessionCourier.Outbox
