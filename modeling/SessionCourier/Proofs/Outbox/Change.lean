import SessionCourier.Delivery.Outbox.Step

set_option autoImplicit false

namespace SessionCourier.Outbox

variable {p : Policy} {clock task now : Nat} {o o' : Outbox} {a : Action} {out : List Output}

/-- How a flush that has the lock goes on with the queue: who has the lock then, and what is said. -/
inductive Goes (o : Outbox) (clock task now : Nat) : Option (Nat × Stage) → List Output → Prop where
  | ended (idle : o.detached = true ∨ o.queue = []) :
      Goes o clock task now none [.flushed task true]
  | sends {head : Notice} {rest : List Notice} {link : Nat} (live : o.detached = false)
      (front : o.queue = head :: rest) (held : o.link = some link) :
      Goes o clock task now (some (task, .invoking now link head clock)) [.invoke link head]
  | connects {head : Notice} {rest : List Notice} (live : o.detached = false)
      (front : o.queue = head :: rest) (bare : o.link = none) :
      Goes o clock task now (some (task, .connecting now head)) [.connect o.address]

theorem attempt_goes (o : Outbox) (clock task now : Nat) :
    ∃ holder out, o.Goes clock task now holder out ∧
      o.attempt clock task now = ({ o with holder := holder }, out) := by
  cases hd : o.detached with
  | true => exact ⟨_, _, .ended (.inl hd), by simp [attempt, hd, finish]⟩
  | false =>
    cases hq : o.queue with
    | nil => exact ⟨_, _, .ended (.inr hq), by simp [attempt, hd, hq, finish]⟩
    | cons head rest =>
      cases hl : o.link with
      | none => exact ⟨_, _, .connects hd hq hl, by simp [attempt, hd, hq, hl]⟩
      | some link => exact ⟨_, _, .sends hd hq hl, by simp [attempt, hd, hq, hl, invoke]⟩

/-- What a task does first with the lock. -/
inductive Enters (o : Outbox) (clock task : Nat) : Job → Outbox → List Output → Prop where
  | waits {now due : Nat} (next : o.nextAttempt = some due) (early : now < due) :
      Enters o clock task (.flush now) { o with holder := none } [.flushed task true]
  | flushes {now : Nat} {holder : Option (Nat × Stage)} {out : List Output}
      (next : ∀ due, o.nextAttempt = some due → due ≤ now)
      (goes : o.Goes clock task now holder out) :
      Enters o clock task (.flush now) { o with holder := holder } out
  | shuts (bare : o.link = none) : Enters o clock task .close o [.log o.closedEvent, .shut task]
  | releases {link : Nat} (held : o.link = some link) :
      Enters o clock task .close { o with link := none, holder := some (task, .closing link) }
        [.release link]

theorem enter_enters (o : Outbox) (clock task : Nat) (job : Job) :
    o.Enters clock task job (o.enter clock task job).1 (o.enter clock task job).2 := by
  cases job with
  | close =>
    cases hl : o.link with
    | none => simpa [enter, hl] using Enters.shuts hl
    | some link => simpa [enter, hl] using Enters.releases hl
  | flush now =>
    by_cases early : o.nextAttempt.any (now < ·) = true
    · obtain ⟨due, next, before⟩ := (Option.any_eq_true _ _).1 early
      simpa [enter, early, finish] using
        Enters.waits next (of_decide_eq_true before)
    · obtain ⟨holder, out, goes, eq⟩ := attempt_goes o clock task now
      have next : ∀ due, o.nextAttempt = some due → due ≤ now := by
        intro due hn
        simpa [hn] using early
      simpa [enter, early, eq] using Enters.flushes next goes

/-- How a failed attempt ends, once its link is released. -/
inductive Fails (p : Policy) (o : Outbox) (clock task now : Nat) (head : Notice) (f : Failure) :
    Outbox → List Output → Prop where
  | abandons (gone : o.detached = true) :
      Fails p o clock task now head f { o with failures := o.failures + 1, holder := none }
        [.count (.failed head.method), .log (o.abandonedEvent head f), .flushed task true]
  | exhausts (live : o.detached = false) (spent : p.isExhausted (o.failures + 1) = true) :
      Fails p o clock task now head f
        { o with
          failures := o.failures + 1, exhausted := true, queue := [], nextAttempt := none,
          holder := none }
        [.count (.failed head.method), .log (o.exhaustedEvent (o.failures + 1) f),
          .flushed task false]
  | retries (live : o.detached = false) (left : p.isExhausted (o.failures + 1) = false) :
      Fails p o clock task now head f
        { o with
          failures := o.failures + 1
          nextAttempt := some (max now clock + p.delay (o.failures + 1)), holder := none }
        [.count (.failed head.method),
          .log (o.retryEvent head (o.failures + 1) (p.delay (o.failures + 1)) f),
          .flushed task true]

theorem fail_fails (p : Policy) (o : Outbox) (clock task now : Nat) (head : Notice) (f : Failure) :
    o.Fails p clock task now head f (fail p o clock task now head f).1
      (fail p o clock task now head f).2 := by
  cases hd : o.detached with
  | true => simpa [fail, hd, saying, finish] using Fails.abandons hd
  | false =>
    cases he : p.isExhausted (o.failures + 1) with
    | true => simpa [fail, hd, he, saying, finish] using Fails.exhausts hd he
    | false => simpa [fail, hd, he, saying, finish] using Fails.retries hd he

/-- What a call does to an outbox before it asks for the lock. -/
inductive Asked (o : Outbox) : Job → Outbox → Prop where
  | flush {now : Nat} (fit : o.exhausted = false) (usable : o.closed = false) :
      Asked o (.flush now) o
  | close (usable : o.closed = false) : Asked o .close { o with closed := true }.detach

/-- All that a step can do. -/
inductive Change (p : Policy) (clock : Nat) (o : Outbox) :
    Action → Outbox → List Output → Prop where
  | accepts {n : Notice} (live : o.accepts = true) :
      Change p clock o (.enqueue n) { o with queue := o.queue ++ [n] } [.accepted n]
  | refuses {n : Notice} (gone : o.accepts = false) :
      Change p clock o (.enqueue n) o [.refused n, .log (o.refusedEvent n)]
  | detaches : Change p clock o .detach o.detach []
  | skips {task now : Nat} (ended : o.exhausted = true ∨ o.closed = true) :
      Change p clock o (.call task (.flush now)) o [.flushed task true]
  | repeats {task : Nat} (ended : o.closed = true) :
      Change p clock o (.call task .close) o [.shut task]
  | queues {task : Nat} {job : Job} {o₁ : Outbox} (asked : o.Asked job o₁)
      (busy : ¬(o.holder = none ∧ o.waiting = [])) :
      Change p clock o (.call task job) { o₁ with waiting := o.waiting ++ [(task, job)] } []
  | calls {task : Nat} {job : Job} {o₁ o₂ : Outbox} {out : List Output} (asked : o.Asked job o₁)
      (free : o.holder = none) (alone : o.waiting = []) (enters : o₁.Enters clock task job o₂ out) :
      Change p clock o (.call task job) o₂ out
  | resumes {task : Nat} {job : Job} {rest : List (Nat × Job)} {o₂ : Outbox} {out : List Output}
      (free : o.holder = none) (first : o.waiting = (task, job) :: rest)
      (enters : { o with waiting := rest }.Enters clock task job o₂ out) :
      Change p clock o .resume o₂ out
  | connected {task now : Nat} {head : Notice}
      (held : o.holder = some (task, .connecting now head)) :
      Change p clock o (.answer (.connected (.ok ())))
        { o with
          link := some o.opened, opened := o.opened + 1
          holder := some (task, .invoking now o.opened head clock) }
        [.log o.openedEvent, .invoke o.opened head]
  | unreached {task now : Nat} {head : Notice} {f : Failure} {o₂ : Outbox} {out : List Output}
      (held : o.holder = some (task, .connecting now head))
      (fails : o.Fails p clock task now head f o₂ out) :
      Change p clock o (.answer (.connected (.error f))) o₂ out
  | delivered {task now link : Nat} {head : Notice} {since : Nat} {holder : Option (Nat × Stage)}
      {out : List Output} (held : o.holder = some (task, .invoking now link head since))
      (goes : { o with queue := o.queue.tail, failures := 0, nextAttempt := none }.Goes
        clock task now holder out) :
      Change p clock o (.answer (.invoked (.ok ())))
        { o with queue := o.queue.tail, failures := 0, nextAttempt := none, holder := holder }
        (.count (.delivered head.method (.ofMilliseconds (clock - since))) ::
          (if 0 < o.failures then [.log o.recoveredEvent] else []) ++ out)
  | rejected {task now link : Nat} {head : Notice} {since : Nat} {f : Failure}
      (held : o.holder = some (task, .invoking now link head since)) :
      Change p clock o (.answer (.invoked (.error f)))
        { o with link := none, holder := some (task, .dropping now link head f) } [.release link]
  | dropped {task now link : Nat} {head : Notice} {f : Failure} {o₂ : Outbox} {out : List Output}
      (held : o.holder = some (task, .dropping now link head f))
      (fails : o.Fails p clock task now head f o₂ out) :
      Change p clock o (.answer .released) o₂ out
  | closes {task link : Nat} (held : o.holder = some (task, .closing link)) :
      Change p clock o (.answer .released) { o with holder := none }
        [.log o.closedEvent, .shut task]

theorem acquire_change {job : Job} {o₁ : Outbox} (asked : o.Asked job o₁) :
    Change p clock o (.call task job) (o₁.acquire clock task job).1
      (o₁.acquire clock task job).2 := by
  have same : o₁.holder = o.holder ∧ o₁.waiting = o.waiting := by cases asked <;> exact ⟨rfl, rfl⟩
  by_cases free : o.holder = none ∧ o.waiting = []
  · have enters := enter_enters o₁ clock task job
    simpa [acquire, same, free] using Change.calls asked free.1 free.2 enters
  · have busy : ¬(o₁.holder.isNone && o₁.waiting.isEmpty) = true := by simpa [same] using free
    rw [acquire, if_neg busy, same.2]
    exact .queues asked free

theorem call_change (job : Job) :
    Change p clock o (.call task job) (o.call clock task job).1 (o.call clock task job).2 := by
  cases job with
  | flush now =>
    by_cases ended : o.exhausted = true ∨ o.closed = true
    · simpa [call, ended] using Change.skips ended
    · simp only [not_or, Bool.not_eq_true] at ended
      simpa [call, ended] using acquire_change (.flush ended.1 ended.2)
  | close =>
    cases hc : o.closed with
    | true => simpa [call, hc] using Change.repeats hc
    | false => simpa [call, hc] using acquire_change (.close hc)

theorem answered_change {stage : Stage} {x : Answer} (held : o.holder = some (task, stage))
    (h : answered p o clock task stage x = some (o', out)) :
    Change p clock o (.answer x) o' out := by
  cases stage with
  | connecting now head =>
    rcases x with (f | _) | _ | _
    · obtain ⟨rfl, rfl⟩ : (fail p o clock task now head f).1 = o' ∧ _ = out := by
        simpa [answered, Prod.ext_iff] using h
      exact .unreached held (fail_fails ..)
    · obtain ⟨rfl, rfl⟩ := by simpa [answered, saying, invoke] using h
      exact .connected held
    · simp [answered] at h
    · simp [answered] at h
  | invoking now link head since =>
    rcases x with _ | (f | _) | _
    · simp [answered] at h
    · obtain ⟨rfl, rfl⟩ := by simpa [answered] using h
      exact .rejected held
    · obtain ⟨holder, out', goes, eq⟩ := attempt_goes
        { o with queue := o.queue.tail, failures := 0, nextAttempt := none } clock task now
      obtain ⟨rfl, rfl⟩ := by simpa [answered, deliver, saying, eq] using h
      exact .delivered held goes
    · simp [answered] at h
  | dropping now link head f =>
    rcases x with _ | _ | _
    · simp [answered] at h
    · simp [answered] at h
    · obtain ⟨rfl, rfl⟩ : (fail p o clock task now head f).1 = o' ∧ _ = out := by
        simpa [answered, Prod.ext_iff] using h
      exact .dropped held (fail_fails ..)
  | closing link =>
    rcases x with _ | _ | _
    · simp [answered] at h
    · simp [answered] at h
    · obtain ⟨rfl, rfl⟩ := by simpa [answered] using h
      exact .closes held

theorem step_change (h : step p clock o a = some (o', out)) : Change p clock o a o' out := by
  cases a with
  | enqueue n =>
    cases live : o.accepts with
    | true =>
      obtain ⟨rfl, rfl⟩ := by simpa [step, enqueue, live] using h
      exact .accepts live
    | false =>
      obtain ⟨rfl, rfl⟩ := by simpa [step, enqueue, live] using h
      exact .refuses live
  | detach =>
    obtain ⟨rfl, rfl⟩ := by simpa [step] using h
    exact .detaches
  | call task job =>
    obtain ⟨rfl, rfl⟩ : (o.call clock task job).1 = o' ∧ (o.call clock task job).2 = out := by
      simpa [step, Prod.ext_iff] using h
    exact call_change job
  | resume =>
    cases free : o.holder with
    | some held => simp [step, free] at h
    | none =>
      cases first : o.waiting with
      | nil => simp [step, free, first] at h
      | cons w rest =>
        obtain ⟨task, job⟩ := w
        have eq : { o with waiting := rest }.enter clock task job = (o', out) := by
          simpa [step, free, first] using h
        have enters := enter_enters { o with waiting := rest } clock task job
        rw [eq] at enters
        exact .resumes free first enters
  | answer x =>
    cases held : o.holder with
    | none => simp [step, held] at h
    | some w =>
      obtain ⟨task, stage⟩ := w
      exact answered_change held (by simpa [step, held] using h)

end SessionCourier.Outbox
