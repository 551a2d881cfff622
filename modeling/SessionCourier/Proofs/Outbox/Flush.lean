import SessionCourier.Proofs.Outbox.Closing

set_option autoImplicit false

namespace SessionCourier.Outbox

/-- What a driver answers, given all that was said so far. -/
structure Replies where
  connect : List Output → Except Failure Unit
  invoke : List Output → Except Failure Unit

namespace Replies

def answer (r : Replies) (heard : List Output) : Stage → Answer
  | .connecting .. => .connected (r.connect heard)
  | .invoking .. => .invoked (r.invoke heard)
  | .dropping .. | .closing _ => .released

def next (r : Replies) (clock : List Output → Nat) (heard : List Output) (o : Outbox) :
    Option (Nat × Action) :=
  o.holder.map fun held => (clock heard, .answer (r.answer heard held.2))

end Replies

/-- A task flushes the outbox, and nothing else happens until the flush has given the lock back. -/
inductive Flushes (p : Policy) (r : Replies) (clock : List Output → Nat) (task now : Nat)
    (o : Outbox) : List Turn → Outbox → Prop where
  | called {u v : Outbox} {out heard : List Output} {us : List Turn}
      (call : step p (clock []) o (.call task (.flush now)) = some (u, out))
      (rest : Course (step p) (r.next clock) out u us heard v) (free : v.holder = none) :
      Flushes p r clock task now o (⟨clock [], o, .call task (.flush now), out⟩ :: us) v

variable {p : Policy} {r : Replies} {clock : List Output → Nat} {task now moment link : Nat}
  {o o' v : Outbox} {out heard : List Output} {ts us : List Turn} {k : Nat} {head : Notice}
  {rest : List Notice}

theorem Replies.next_free (r : Replies) (free : o.holder = none) : r.next clock heard o = none := by
  rw [next, free, Option.map_none]

theorem Flushes.unique (h : Flushes p r clock task now o ts v)
    (h' : Flushes p r clock task now o us o') : us = ts ∧ o' = v := by
  cases h with
  | called call rest free =>
    cases h' with
    | called call' rest' free' =>
      cases call.symm.trans call'
      obtain ⟨rfl, rfl⟩ := rest.unique (r.next_free free) rest' (r.next_free free')
      exact ⟨rfl, rfl⟩

theorem Flushes.trace (h : Flushes p r clock task now o ts v) : Trace (step p) o ts v := by
  cases h with
  | called call rest => exact (Trace.single call).append rest.trace

def outcome? : Action → Option (Except Failure Unit)
  | .answer (.invoked x) => some x
  | _ => none

def outcomes (ts : List Turn) : List (Except Failure Unit) :=
  ts.filterMap fun t => outcome? t.action

theorem attempt_empty (empty : o.queue = []) :
    o.attempt moment task now = ({ o with holder := none }, [.flushed task true]) := by
  cases live : o.detached <;> simp [attempt, live, empty, finish]

theorem attempt_linked (live : o.detached = false) (front : o.queue = head :: rest)
    (held : o.link = some link) :
    o.attempt moment task now =
      ({ o with holder := some (task, .invoking now link head moment) }, [.invoke link head]) := by
  simp [attempt, live, front, held, invoke]

theorem attempt_bare (live : o.detached = false) (front : o.queue = head :: rest)
    (bare : o.link = none) :
    o.attempt moment task now =
      ({ o with holder := some (task, .connecting now head) }, [.connect o.address]) := by
  simp [attempt, live, front, bare]

theorem attempt_holding (o : Outbox) (holder : Option (Nat × Stage)) (moment task now : Nat) :
    { o with holder := holder }.attempt moment task now = o.attempt moment task now := by
  simp only [attempt, finish, invoke]

theorem step_taken (p : Policy) (o : Outbox) (clock task now link since : Nat) (head : Notice) :
    step p clock { o with holder := some (task, .invoking now link head since) }
        (.answer (.invoked (.ok ()))) =
      some (({ o with queue := o.queue.tail, failures := 0, nextAttempt := none }.attempt
          clock task now).1,
        .count (.delivered head.method (.ofMilliseconds (clock - since))) ::
          (if 0 < o.failures then [.log o.recoveredEvent] else []) ++
          ({ o with queue := o.queue.tail, failures := 0, nextAttempt := none }.attempt
            clock task now).2) := by
  rw [← attempt_holding _ (some (task, .invoking now link head since))]
  rfl

theorem step_opened (live : o.detached = false) (front : o.queue = head :: rest) :
    step p moment { o with holder := some (task, .connecting now head) }
        (.answer (.connected (.ok ()))) =
      some (({ o with link := some o.opened, opened := o.opened + 1 }.attempt moment task now).1,
        .log o.openedEvent ::
          ({ o with link := some o.opened, opened := o.opened + 1 }.attempt moment task now).2) := by
  rw [attempt_linked (o := { o with link := some o.opened, opened := o.opened + 1 }) live front rfl]
  rfl

def served (o : Outbox) (k : Nat) : Outbox :=
  { o with
    queue := o.queue.drop k
    failures := if k = 0 then o.failures else 0
    nextAttempt := if k = 0 then o.nextAttempt else none }

theorem served_succ (o : Outbox) (k : Nat) :
    served o (k + 1) =
      served { o with queue := o.queue.tail, failures := 0, nextAttempt := none } k := by
  simp [served]

theorem served_all (all : k = o.queue.length) (some_taken : 0 < k) :
    served o k = { o with queue := [], failures := 0, nextAttempt := none } := by
  have later : k ≠ 0 := Nat.ne_of_gt some_taken
  rw [served, if_neg later, if_neg later, all, List.drop_length]

theorem Fails.silent {f : Failure} (h : o.Fails p moment task now head f v out) :
    out.filterMap Output.invoked? = [] ∧ out.filterMap Output.connected? = [] ∧
      out.filterMap Output.released? = [] := by
  cases h <;> exact ⟨rfl, rfl, rfl⟩

theorem Fails.free {f : Failure} (h : o.Fails p moment task now head f v out) :
    v.holder = none := by
  cases h <;> rfl

/-- A flush goes through the queue over its link: what it says first, the turns at which the driver
answers, and how many notices the driver takes. -/
inductive Delivers (p : Policy) (task now link : Nat) :
    Outbox → List Output → List Turn → Nat → Outbox → Prop where
  | empty {o : Outbox} (held : o.link = some link) (empty : o.queue = []) :
      Delivers p task now link o [.flushed task true] [] 0 { o with holder := none }
  | breaks {o v : Outbox} {head : Notice} {rest : List Notice} {since moment moment' : Nat}
      {f : Failure} {out : List Output} (held : o.link = some link) (front : o.queue = head :: rest)
      (fails : { o with link := none, holder := some (task, .dropping now link head f) }.Fails
        p moment' task now head f v out) :
      Delivers p task now link o [.invoke link head]
        [⟨moment, { o with holder := some (task, .invoking now link head since) },
            .answer (.invoked (.error f)), [.release link]⟩,
          ⟨moment', { o with link := none, holder := some (task, .dropping now link head f) },
            .answer .released, out⟩] 0 v
  | takes {o v : Outbox} {head : Notice} {rest : List Notice} {since moment k : Nat}
      {first : List Output} {us : List Turn} (front : o.queue = head :: rest)
      (others : Delivers p task now link
        { o with queue := o.queue.tail, failures := 0, nextAttempt := none } first us k v) :
      Delivers p task now link o [.invoke link head]
        (⟨moment, { o with holder := some (task, .invoking now link head since) },
          .answer (.invoked (.ok ())),
          .count (.delivered head.method (.ofMilliseconds (moment - since))) ::
            (if 0 < o.failures then [.log o.recoveredEvent] else []) ++ first⟩ :: us) (k + 1) v

theorem delivers_linked (p : Policy) (r : Replies) (clock : List Output → Nat) (task now : Nat)
    (heard : List Output) (moment : Nat) (live : o.detached = false) (held : o.link = some link) :
    ∃ us k heard' v, Course (step p) (r.next clock) (heard ++ (o.attempt moment task now).2)
        (o.attempt moment task now).1 us heard' v ∧
      Delivers p task now link o (o.attempt moment task now).2 us k v := by
  induction front : o.queue generalizing o heard moment with
  | nil =>
    rw [attempt_empty front]
    exact ⟨[], 0, _, _, .refl, .empty held front⟩
  | cons head rest ih =>
    rw [attempt_linked live front held]
    have waits : r.next clock (heard ++ [.invoke link head])
        { o with holder := some (task, .invoking now link head moment) } =
        some (clock (heard ++ [.invoke link head]),
          .answer (.invoked (r.invoke (heard ++ [.invoke link head])))) :=
      rfl
    generalize clock (heard ++ [.invoke link head]) = moment' at waits
    cases reply : r.invoke (heard ++ [.invoke link head]) with
    | ok =>
      rw [reply] at waits
      obtain ⟨us, k, heard', v, course, others⟩ := ih
        (heard ++ [.invoke link head] ++
          .count (.delivered head.method (.ofMilliseconds (moment' - moment))) ::
            (if 0 < o.failures then [.log o.recoveredEvent] else [])) moment'
        (o := { o with queue := o.queue.tail, failures := 0, nextAttempt := none }) live held
        (by rw [front, List.tail_cons])
      refine ⟨_, k + 1, heard', v, .goes waits (step_taken ..) ?_, .takes front others⟩
      simpa using course
    | error f =>
      rw [reply] at waits
      have fails := fail_fails p
        { o with link := none, holder := some (task, .dropping now link head f) }
        (clock (heard ++ [.invoke link head] ++ [.release link])) task now head f
      exact ⟨_, 0, _, _, .goes waits rfl (.goes rfl rfl .refl), .breaks held front fails⟩

namespace Delivers

variable {first : List Output}

theorem free (h : Delivers p task now link o first us k v) : v.holder = none := by
  induction h with
  | empty => rfl
  | breaks _ _ fails => exact fails.free
  | takes _ _ ih => exact ih

theorem within (h : Delivers p task now link o first us k v) : k ≤ o.queue.length := by
  induction h with
  | empty | breaks => exact Nat.zero_le _
  | takes front _ ih =>
    rw [front]
    exact Nat.succ_le_succ (by simpa [front] using ih)

theorem sent (h : Delivers p task now link o first us k v) :
    first.filterMap Output.invoked? ++ invoked us = o.queue.take (k + 1) := by
  induction h with
  | empty _ empty => rw [empty]; rfl
  | breaks _ front fails =>
    rw [front]
    simp [invoked, Output.invoked?, fails.silent]
  | takes front others ih =>
    rw [invoked, said_cons, filterMap_after (fun _ => rfl) (fun _ => rfl), ← invoked, ih, front]
    rfl

theorem unconnected (h : Delivers p task now link o first us k v) :
    first.filterMap Output.connected? ++ connects us = [] := by
  induction h with
  | empty => rfl
  | breaks _ _ fails => simp [connects, Output.connected?, fails.silent]
  | takes _ _ ih =>
    rw [connects, said_cons, filterMap_after (fun _ => rfl) (fun _ => rfl), ← connects, ih]
    rfl

theorem unopened (h : Delivers p task now link o first us k v) : openings us = 0 := by
  induction h with
  | empty | breaks => rfl
  | takes _ _ ih => simpa [openings, opens] using ih

theorem taken (h : Delivers p task now link o first us k v) :
    ((outcomes us).takeWhile Except.isOk).length = k := by
  induction h with
  | empty | breaks => rfl
  | takes _ _ ih => exact congrArg Nat.succ ih

theorem well (h : Delivers p task now link o first us k v) :
    k = o.queue.length ↔ ∀ t ∈ us, fails t.action = false := by
  induction h with
  | empty _ empty => simp [empty]
  | breaks _ front => simp [front, Outbox.fails]
  | takes front _ ih => simpa [front, Outbox.fails] using ih

theorem emptied (h : Delivers p task now link o first us k v) (all : k = o.queue.length) :
    first.filterMap Output.alive? ++ endings us = [true] ∧
      first.filterMap Output.released? ++ released us = [] ∧
      v = { served o k with holder := none } := by
  induction h with
  | empty _ empty => exact ⟨rfl, rfl, by simp [served]⟩
  | breaks _ front => simp [front] at all
  | takes front _ ih =>
    obtain ⟨alive, kept, rfl⟩ := ih (by simpa [front] using all)
    rw [endings, released, said_cons, said_cons, filterMap_after (fun _ => rfl) (fun _ => rfl),
      filterMap_after (fun _ => rfl) (fun _ => rfl), ← endings, ← released, alive, kept]
    exact ⟨rfl, rfl, by rw [served_succ]⟩

theorem cut (h : Delivers p task now link o first us k v) (some_left : k < o.queue.length) :
    first.filterMap Output.released? ++ released us = [link] ∧ closings us = [link] ∧
      ∃ t holder head f, us.getLast? = some t ∧
        first.filterMap Output.alive? ++ endings us = t.outputs.filterMap Output.alive? ∧
        Fails p { served o k with link := none, holder := holder } t.clock task now head f v
          t.outputs := by
  induction h with
  | empty _ empty => simp [empty] at some_left
  | @breaks o v head rest since moment moment' f out held _ fails =>
    refine ⟨?_, rfl, _, some (task, .dropping now link head f), head, f, rfl, ?_, ?_⟩
    · simp [released, Output.released?, fails.silent]
    · rw [endings, said_cons, said_cons, said_nil, List.append_nil]
      rfl
    · simpa [served] using fails
  | takes front _ ih =>
    obtain ⟨dropped, closed, t, holder, head, f, last, alive, fails⟩ :=
      ih (by simpa [front] using some_left)
    rw [endings, released, said_cons, said_cons, filterMap_after (fun _ => rfl) (fun _ => rfl),
      filterMap_after (fun _ => rfl) (fun _ => rfl), ← endings, ← released, alive, dropped]
    refine ⟨rfl, by simpa [closings, closes?] using closed, t, holder, head, f, ?_, rfl, ?_⟩
    · rw [List.getLast?_cons, last]
      rfl
    · rw [served_succ]
      exact fails

end Delivers

/-- A flush that is called with `now` may make an attempt, and has the outbox for itself. -/
structure Ready (o : Outbox) (now : Nat) : Prop where
  fit : o.exhausted = false
  usable : o.closed = false
  live : o.detached = false
  ripe : ∀ due, o.nextAttempt = some due → due ≤ now
  free : o.holder = none
  alone : o.waiting = []

theorem step_ready (p : Policy) (moment task : Nat) (ready : o.Ready now) :
    step p moment o (.call task (.flush now)) = some (o.attempt moment task now) := by
  have ripe : ¬o.nextAttempt.any (now < ·) = true := by
    intro early
    obtain ⟨due, next, before⟩ := (Option.any_eq_true _ _).1 early
    exact absurd (ready.ripe due next) (Nat.not_le_of_lt (of_decide_eq_true before))
  simp [step, call, acquire, enter, ready.fit, ready.usable, ready.free, ready.alone, ripe]

/-- The link that a flush found or opened. -/
def linkUsed (o : Outbox) (ts : List Turn) : Option Nat :=
  o.link.or (if openings ts = 0 then none else some o.opened)

def failuresAfter (o : Outbox) (k : Nat) : UInt32 := if k = 0 then o.failures + 1 else 1

/-- All that a flush does of which the driver takes `k` notices. -/
structure Flushed (p : Policy) (now : Nat) (o : Outbox) (ts : List Turn) (k : Nat) (v : Outbox) :
    Prop where
  /-- `k` notices were taken before the first that was not. -/
  taken : ((outcomes ts).takeWhile Except.isOk).length = k
  within : k ≤ o.queue.length
  /-- All were taken if no attempt failed. -/
  well : k = o.queue.length ↔ ∀ t ∈ ts, fails t.action = false
  sent : invoked ts = o.queue.take k ++ if (o.linkUsed ts).isSome then o.queue[k]?.toList else []
  connected : connects ts = if o.queue ≠ [] ∧ o.link = none then [o.address] else []
  unchanged : o.queue = [] → endings ts = [true] ∧ released ts = [] ∧ v = o
  emptied : k = o.queue.length → 0 < k → endings ts = [true] ∧ released ts = [] ∧
    v = { o with
      queue := [], failures := 0, nextAttempt := none
      link := o.linkUsed ts, opened := o.opened + openings ts }
  /-- An attempt failed: its link is given up, and another is due unless too many have failed. -/
  cut : k < o.queue.length →
    released ts = (o.linkUsed ts).toList ∧ closings ts = (o.linkUsed ts).toList ∧
    ((p.maxRetries < o.failuresAfter k ∧ endings ts = [false] ∧
        v = { o with
          queue := [], exhausted := true, failures := o.failuresAfter k, nextAttempt := none
          link := none, opened := o.opened + openings ts }) ∨
      o.failuresAfter k ≤ p.maxRetries ∧ endings ts = [true] ∧
        ∃ t, ts.getLast? = some t ∧
          v = { o with
            queue := o.queue.drop k, failures := o.failuresAfter k
            nextAttempt := some (max now t.clock + p.delay (o.failuresAfter k))
            link := none, opened := o.opened + openings ts })

theorem failuresAfter_eq (o : Outbox) (k : Nat) : (served o k).failures + 1 = o.failuresAfter k := by
  unfold failuresAfter served
  split
  · rfl
  · exact UInt32.zero_add 1

theorem Fails.setsBack {f : Failure} {opened : Nat} {holder : Option (Nat × Stage)}
    (h : Fails p { served o k with link := none, opened := opened, holder := holder } moment task
      now head f v out) (ready : o.Ready now) :
    (p.maxRetries < o.failuresAfter k ∧ out.filterMap Output.alive? = [false] ∧
        v = { o with
          queue := [], exhausted := true, failures := o.failuresAfter k, nextAttempt := none
          link := none, opened := opened }) ∨
      o.failuresAfter k ≤ p.maxRetries ∧ out.filterMap Output.alive? = [true] ∧
        v = { o with
          queue := o.queue.drop k, failures := o.failuresAfter k
          nextAttempt := some (max now moment + p.delay (o.failuresAfter k))
          link := none, opened := opened } := by
  have failures := failuresAfter_eq o k
  have free := ready.free
  cases h with
  | abandons gone => cases ready.live.symm.trans gone
  | exhausts _ spent =>
    rw [failures] at spent
    refine .inl ⟨of_decide_eq_true spent, rfl, ?_⟩
    rw [failures, ← free]
    rfl
  | retries _ left =>
    rw [failures] at left
    refine .inr ⟨UInt32.not_lt.1 (of_decide_eq_false left), rfl, ?_⟩
    rw [failures, ← free]
    rfl

theorem flushed_empty (empty : o.queue = []) :
    Flushed p now o [⟨moment, o, .call task (.flush now), [.flushed task true]⟩] 0 o where
  taken := rfl
  within := Nat.zero_le _
  well := by simp [empty, Outbox.fails]
  sent := by simp [empty, invoked, Output.invoked?]
  connected := by simp [empty, connects, Output.connected?]
  unchanged _ := ⟨rfl, rfl, rfl⟩
  emptied _ more := absurd more (Nat.lt_irrefl 0)
  cut more := by simp [empty] at more

structure Obtains (o : Outbox) (link : Nat) (pre : List Turn) (first : List Output) : Prop where
  used : o.linkUsed pre = some link
  well : ∀ t ∈ pre, fails t.action = false
  unanswered : outcomes pre = []
  unclosed : closings pre = []
  connected : connects pre = if o.link = none then [o.address] else []
  said : ∀ {β : Type} (f : Output → Option β), (∀ a, f (.connect a) = none) →
    (∀ e, f (.log e) = none) → said f pre = first.filterMap f

theorem obtains_held (moment task now : Nat) {first : List Output} (held : o.link = some link)
    (silent : first.filterMap Output.connected? = []) :
    Obtains o link [⟨moment, o, .call task (.flush now), first⟩] first where
  used := by rw [linkUsed, held, Option.some_or]
  well := by simp [Outbox.fails]
  unanswered := rfl
  unclosed := rfl
  connected := by simp [connects, silent, held]
  said f _ _ := by simp

theorem obtains_opened {first : List Output} {moment' : Nat} {holder : Option (Nat × Stage)}
    (bare : o.link = none) (silent : first.filterMap Output.connected? = []) :
    Obtains o o.opened
      [⟨moment, o, .call task (.flush now), [.connect o.address]⟩,
        ⟨moment', { o with holder := holder }, .answer (.connected (.ok ())),
          .log o.openedEvent :: first⟩] first where
  used := by rw [linkUsed, bare]; rfl
  well := by simp [Outbox.fails]
  unanswered := rfl
  unclosed := rfl
  connected := by
    have later : (Output.log o.openedEvent :: first).filterMap Output.connected? = [] := silent
    rw [connects, said_cons, said_cons, said_nil, later, if_pos bare]
    rfl
  said f connect log := by simp [connect, log]

theorem flushed_of_delivers {pre : List Turn} {first : List Output} (ready : o.Ready now)
    (front : o.queue = head :: rest) (obtains : o.Obtains link pre first)
    (linked : o' = { o with link := some link, opened := o.opened + openings pre })
    (h : Delivers p task now link o' first us k v) : Flushed p now o (pre ++ us) k v := by
  subst linked
  have opened : openings (pre ++ us) = openings pre := by
    rw [openings_append, h.unopened, Nat.add_zero]
  have used : o.linkUsed (pre ++ us) = some link := by
    rw [linkUsed, opened]
    exact obtains.used
  have answered : outcomes (pre ++ us) = outcomes us := by
    rw [outcomes, List.filterMap_append]
    exact congrArg (· ++ outcomes us) obtains.unanswered
  have spoken {β : Type} (f : Output → Option β) (connect : ∀ a, f (.connect a) = none)
      (log : ∀ e, f (.log e) = none) :
      said f (pre ++ us) = first.filterMap f ++ said f us := by
    rw [said_append, obtains.said f connect log]
  refine ⟨?_, h.within, ?_, ?_, ?_, fun empty => ?_, fun all some_taken => ?_, fun more => ?_⟩
  · rw [answered]
    exact h.taken
  · rw [h.well, List.forall_mem_append]
    exact (and_iff_right obtains.well).symm
  · rw [invoked, spoken _ (fun _ => rfl) (fun _ => rfl), ← invoked, h.sent, used, List.take_add_one]
    rfl
  · obtain ⟨-, silent⟩ := List.append_eq_nil_iff.1 h.unconnected
    rw [connects, said_append, ← connects, ← connects, silent, obtains.connected, front]
    simp
  · cases front.symm.trans empty
  · obtain ⟨alive, kept, rfl⟩ := h.emptied all
    rw [endings, released, spoken _ (fun _ => rfl) (fun _ => rfl),
      spoken _ (fun _ => rfl) (fun _ => rfl), ← endings, ← released, alive, kept, used, opened,
      served_all (o := { o with link := some link, opened := o.opened + openings pre }) all some_taken]
    exact ⟨rfl, rfl, by rw [ready.free]⟩
  · obtain ⟨dropped, closed, t, holder, head', f, last, alive, fails⟩ := h.cut more
    rw [endings, released, spoken _ (fun _ => rfl) (fun _ => rfl),
      spoken _ (fun _ => rfl) (fun _ => rfl), ← endings, ← released, alive, dropped, used, opened,
      closings_append, obtains.unclosed, closed]
    refine ⟨rfl, rfl, ?_⟩
    have unlinked : Fails p { served o k with
        link := none, opened := o.opened + openings pre, holder := holder }
        t.clock task now head' f v t.outputs := fails
    rcases unlinked.setsBack ready with gone | ⟨left, ended, rfl⟩
    · exact .inl gone
    · exact .inr ⟨left, ended, t, by rw [List.getLast?_append, last]; rfl, rfl⟩

theorem flushed_unreached {moment' : Nat} {f : Failure} (ready : o.Ready now) (bare : o.link = none)
    (front : o.queue = head :: rest)
    (h : { o with holder := some (task, .connecting now head) }.Fails p moment' task now head f v
      out) :
    Flushed p now o
      [⟨moment, o, .call task (.flush now), [.connect o.address]⟩,
        ⟨moment', { o with holder := some (task, .connecting now head) },
          .answer (.connected (.error f)), out⟩] 0 v := by
  generalize turns : [_, _] = ts
  have spoken {β : Type} (x : Output → Option β) :
      said x ts = [Output.connect o.address].filterMap x ++ out.filterMap x := by
    rw [← turns, said_cons, said_cons, said_nil, List.append_nil]
  have unopened : openings ts = 0 := turns ▸ rfl
  have unused : o.linkUsed ts = none := by rw [linkUsed, bare, unopened]; rfl
  have unlinked : Fails p { served o 0 with
      link := none, opened := o.opened + openings ts, holder := some (task, .connecting now head) }
      moment' task now head f v out := by
    simpa [served, bare, unopened] using h
  refine ⟨turns ▸ rfl, Nat.zero_le _, ?_, ?_, ?_, fun empty => ?_, fun _ more => ?_, fun _ => ?_⟩
  · rw [← turns, front]
    simp [Outbox.fails]
  · rw [invoked, spoken, h.silent.1, unused]
    rfl
  · rw [connects, spoken, h.silent.2.1, if_pos ⟨by simp [front], bare⟩]
    rfl
  · cases front.symm.trans empty
  · exact absurd more (Nat.lt_irrefl 0)
  · rw [released, endings, spoken, spoken, h.silent.2.2, unused]
    refine ⟨rfl, turns ▸ rfl, ?_⟩
    rcases unlinked.setsBack ready with gone | ⟨left, ended, rfl⟩
    · exact .inl gone
    · exact .inr ⟨left, ended, _, by rw [← turns]; rfl, rfl⟩

theorem exists_flush (p : Policy) (r : Replies) (clock : List Output → Nat) (task : Nat)
    (ready : o.Ready now) :
    ∃ ts k v, Flushes p r clock task now o ts v ∧ Flushed p now o ts k v := by
  have call := step_ready p (clock []) task ready
  cases front : o.queue with
  | nil =>
    rw [attempt_empty front] at call
    have same : { o with holder := none } = o := by rw [← ready.free]
    rw [same] at call
    exact ⟨_, 0, o, .called call .refl ready.free, flushed_empty front⟩
  | cons head rest =>
    cases held : o.link with
    | some link =>
      obtain ⟨us, k, heard, v, course, seen⟩ :=
        delivers_linked p r clock task now [] (clock []) ready.live held
      have silent := (List.append_eq_nil_iff.1 seen.unconnected).1
      have obtains := obtains_held (clock []) task now held silent
      exact ⟨_, k, v, .called call course seen.free,
        flushed_of_delivers ready front obtains (by rw [← held]; rfl) seen⟩
    | none =>
      rw [attempt_bare ready.live front held] at call
      have waits : r.next clock [.connect o.address]
          { o with holder := some (task, .connecting now head) } =
          some (clock [.connect o.address], .answer (.connected (r.connect [.connect o.address]))) :=
        rfl
      generalize clock [.connect o.address] = moment at waits
      cases reply : r.connect [.connect o.address] with
      | ok =>
        rw [reply] at waits
        obtain ⟨us, k, heard, v, course, seen⟩ :=
          delivers_linked p r clock task now [.connect o.address, .log o.openedEvent] moment
            (o := { o with link := some o.opened, opened := o.opened + 1 }) ready.live rfl
        have silent := (List.append_eq_nil_iff.1 seen.unconnected).1
        exact ⟨_, k, v,
          .called call (.goes waits (step_opened ready.live front) course) seen.free,
          flushed_of_delivers ready front (obtains_opened held silent) rfl seen⟩
      | error f =>
        rw [reply] at waits
        have fails := fail_fails p { o with holder := some (task, .connecting now head) } moment
          task now head f
        exact ⟨_, 0, _, .called call (.goes waits rfl .refl) fails.free,
          flushed_unreached ready held front fails⟩

theorem free_of_unready {u : Outbox} (free : o.holder = none) (alone : o.waiting = [])
    (unready : ¬o.Ready now)
    (call : step p moment o (.call task (.flush now)) = some (u, out)) : u.holder = none := by
  cases step_change call with
  | skips => exact free
  | queues _ busy => exact absurd ⟨free, alone⟩ busy
  | calls asked _ _ enters =>
    obtain ⟨fit, usable⟩ := asked
    cases enters with
    | waits => rfl
    | flushes ripe goes =>
      cases goes with
      | ended => rfl
      | sends live | connects live => exact absurd ⟨fit, usable, live, ripe, free, alone⟩ unready

theorem exists_flush_of_free (p : Policy) (r : Replies) (clock : List Output → Nat)
    (task now : Nat) (free : o.holder = none) (alone : o.waiting = []) :
    ∃ ts v, Flushes p r clock task now o ts v := by
  by_cases ready : o.Ready now
  · obtain ⟨ts, -, v, flushes, -⟩ := exists_flush p r clock task ready
    exact ⟨ts, v, flushes⟩
  · have call : step p (clock []) o (.call task (.flush now)) =
        some (o.call (clock []) task (.flush now)) := rfl
    exact ⟨_, _, .called call .refl (free_of_unready free alone ready call)⟩

/-- Whatever the driver answers and whatever the clock shows, there is one way in which a flush can go
that may make an attempt and has the outbox for itself, and it ends. -/
theorem flushes_until_failure (p : Policy) (r : Replies) (clock : List Output → Nat) (task : Nat)
    (ready : o.Ready now) :
    ∃ ts v, (∀ us u, Flushes p r clock task now o us u ↔ us = ts ∧ u = v) ∧
      ∃ k, Flushed p now o ts k v := by
  obtain ⟨ts, k, v, flushes, flushed⟩ := exists_flush p r clock task ready
  refine ⟨ts, v, fun us u => ⟨flushes.unique, ?_⟩, k, flushed⟩
  rintro ⟨rfl, rfl⟩
  exact flushes

/-- Three notices wait, and the attempt before failed. -/
def retried : Outbox :=
  { sampleOutbox with
    queue := ["a", "b", "c"].map sampleNotice, failures := 2, nextAttempt := some 50 }

/-- The driver takes one notice. -/
def takesOne : Replies where
  connect _ := .ok ()
  invoke heard := if (heard.filterMap Output.invoked?).length = 1 then .ok () else .error .closed

theorem flushes_until_failure_cut : retried.Ready 50 ∧ ∃ ts v,
    Flushes samplePolicy takesOne (fun heard => 50 + heard.length) 0 50 retried ts v ∧
      invoked ts = ["a", "b"].map sampleNotice ∧ endings ts = [true] ∧
      v.queue = ["b", "c"].map sampleNotice ∧ v.failures = 1 ∧ v.nextAttempt = some 157 := by
  have ready : retried.Ready 50 :=
    ⟨rfl, rfl, rfl, fun due next => (Option.some_inj.1 next).symm ▸ Nat.le_refl 50, rfl, rfl⟩
  obtain ⟨ts, v, alone, k, seen⟩ :=
    flushes_until_failure samplePolicy takesOne (fun heard => 50 + heard.length) 0 ready
  have flushes := (alone ts v).2 ⟨rfl, rfl⟩
  obtain ⟨rfl, rfl⟩ := (alone _ _).1 (.called rfl
    (.goes rfl rfl (.goes rfl rfl (.goes rfl rfl (.goes rfl rfl .refl)))) rfl)
  obtain rfl : 1 = k := seen.taken
  obtain ⟨-, -, ⟨spent, -⟩ | ⟨-, ended, t, last, eq⟩⟩ := seen.cut (by decide)
  · exact absurd spent (by decide)
  · obtain rfl := Option.some_inj.1 last
    refine ⟨ready, _, _, flushes, seen.sent, ended, ?_⟩
    rw [eq]
    exact ⟨rfl, rfl, rfl⟩

end SessionCourier.Outbox
