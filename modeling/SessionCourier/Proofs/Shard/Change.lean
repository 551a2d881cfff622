import SessionCourier.Proofs.Outbox.Alone

set_option autoImplicit false

namespace SessionCourier.Shard

variable {p : Policy} {clock : Nat} {s s' : Shard} {a : Action} {out : List Output}

/-- The worker takes an action of an outbox, and goes on with a phase afterwards. -/
inductive Job (s : Shard) (clock : Nat) : Move → Shard → Nat → Phase → Outbox.Action → Prop where
  | drain {id : Nat} {left : List Nat} (at_ : s.stage = .ready (.drain (id :: left))) :
      Job s clock .proceed s id (.drain left) (.call task .close)
  | pass {id : Nat} {left : List Nat} (at_ : s.stage = .ready (.pass (id :: left))) :
      Job s clock .proceed s id (.pass left) (.call task (.flush clock))
  | finalDrain {id : Nat} {left : List Nat} (at_ : s.stage = .ready (.finalDrain (id :: left))) :
      Job s clock .proceed s id (.finalDrain left) (.call task .close)
  | finalClose {h : Handle} {id : Nat} {left : List Handle}
      (at_ : s.stage = .ready (.finalClose (h :: left))) (known : s.liveId? h = some id) :
      Job s clock .proceed { s with live := s.live.filter (·.1 ≠ h) } id (.finalClose left)
        (.call task .close)
  | answer {id : Nat} {phase : Phase} {x : Outbox.Answer} (at_ : s.stage = .busy id phase) :
      Job s clock (.answer x) s id phase (.answer x)

/-- Where the worker is after a step of an outbox of session `h`, and what it says then. -/
inductive Settles (id : Nat) (h : Handle) (said : List Outbox.Output) :
    Phase → Stage → List Output → Prop where
  | waits {phase : Phase} (on : over? said = none) : Settles id h said phase (.busy id phase) []
  | escalates {left : List Nat} (dead : over? said = some false) :
      Settles id h said (.pass left) (.escalating h left)
        [.count .timedOut, .log (unreachableEvent h), .endSession h .timedOut]
  | goesOn {phase : Phase} {alive : Bool} (ended : over? said = some alive)
      (fine : alive = true ∨ ∀ left, phase ≠ .pass left) :
      Settles id h said phase (.ready phase) []

/-- All that a step can do. -/
inductive Change (p : Policy) (clock : Nat) (s : Shard) :
    Action → Shard → List Output → Prop where
  | adds {addr : Address} {n : Notice} {id : Nat} {o : Outbox}
      (known : s.liveId? n.handle = some id) (has : s.outbox? id = some o) :
      Change p clock s (.add addr n)
        { s with outboxes := s.outboxes.set id (o.enqueue n).1 }.wakeUp
        ((o.enqueue n).2.map (.outbox id))
  | creates {addr : Address} {n : Notice} (new : s.liveId? n.handle = none) :
      Change p clock s (.add addr n)
        { s with
          outboxes := s.outboxes ++ [((Outbox.create n.handle addr).enqueue n).1]
          live := s.live ++ [(n.handle, s.outboxes.length)] }.wakeUp
        (.log (s.createdEvent n.handle addr) ::
          ((Outbox.create n.handle addr).enqueue n).2.map (.outbox s.outboxes.length))
  | offers {id : Nat} {n : Notice} {o : Outbox} (has : s.outbox? id = some o) :
      Change p clock s (.offer id n) { s with outboxes := s.outboxes.set id (o.enqueue n).1 }
        ((o.enqueue n).2.map (.outbox id))
  | misses {h : Handle} (unknown : s.liveId? h = none) : Change p clock s (.delete h) s []
  | deletes {h : Handle} {id : Nat} (known : s.liveId? h = some id) :
      Change p clock s (.delete h)
        { s with
          live := s.live.filter (·.1 ≠ h)
          outboxes := s.outboxes.modify id Outbox.detach
          deletions := s.deletions ++ [id] }.wakeUp []
  | starts (at_ : s.stage = .unstarted) :
      Change p clock s (.move .start) (s.park clock) [.enter .worker, .log startedEvent]
  | wakes {since : Nat} (at_ : s.stage = .parked since true) :
      Change p clock s (.move .wake) (s.begin .drain s.permit) []
  | polls {since : Nat} {handed : Bool} (at_ : s.stage = .parked since handed) :
      Change p clock s (.move .poll) (s.begin .drain (s.permit || handed)) []
  | stops {since : Nat} {handed : Bool} (at_ : s.stage = .parked since handed) :
      Change p clock s (.move .stop) (s.begin .finalDrain (s.permit || handed)) []
  | surveys {order : List Nat} (at_ : s.stage = .ready (.drain []))
      (perm : order.Perm (s.live.map (·.2))) :
      Change p clock s (.move (.survey order)) { s with stage := .ready (.pass order) } []
  | sweeps {order : List Handle} (at_ : s.stage = .ready (.finalDrain []))
      (perm : order.Perm (s.live.map (·.1))) :
      Change p clock s (.move (.sweep order)) { s with stage := .ready (.finalClose order) } []
  | parks (at_ : s.stage = .ready (.pass [])) : Change p clock s (.move .proceed) (s.park clock) []
  | skips {h : Handle} {left : List Handle} (at_ : s.stage = .ready (.finalClose (h :: left)))
      (unknown : s.liveId? h = none) :
      Change p clock s (.move .proceed) { s with stage := .ready (.finalClose left) } []
  | halts (at_ : s.stage = .ready (.finalClose [])) :
      Change p clock s (.move .proceed) { s with stage := .stopped } [.log stoppedEvent]
  | works {m : Move} {s₁ : Shard} {id : Nat} {phase : Phase} {b : Outbox.Action} {o o' : Outbox}
      {said : List Outbox.Output} {stage : Stage} {after : List Output}
      (job : s.Job clock m s₁ id phase b) (has : s.outbox? id = some o)
      (taken : Outbox.step p clock o b = some (o', said))
      (settles : Settles id o'.handle said phase stage after) :
      Change p clock s (.move m)
        { s₁ with outboxes := s.outboxes.set id o', stage := stage }
        (said.map (.outbox id) ++ after)
  | ends {h : Handle} {left : List Nat} {result : Except ManagerFailure Unit}
      (at_ : s.stage = .escalating h left) :
      Change p clock s (.move (.ended result)) { s with stage := .ready (.pass left) }
        (match result with
          | .ok () => []
          | .error e => [.log (endFailedEvent h e)])

@[simp] theorem wakeUp_outboxes (s : Shard) : s.wakeUp.outboxes = s.outboxes := by
  unfold wakeUp
  split <;> rfl

@[simp] theorem wakeUp_live (s : Shard) : s.wakeUp.live = s.live := by
  unfold wakeUp
  split <;> rfl

@[simp] theorem wakeUp_deletions (s : Shard) : s.wakeUp.deletions = s.deletions := by
  unfold wakeUp
  split <;> rfl

theorem wakeUp_with (s : Shard) (os : List Outbox) :
    { s.wakeUp with outboxes := os } = { s with outboxes := os }.wakeUp := by
  unfold wakeUp
  dsimp only
  split <;> rfl

theorem outbox_lt {id : Nat} {o : Outbox} (has : s.outbox? id = some o) : id < s.outboxes.length :=
  (List.getElem?_eq_some_iff.1 has).1

theorem outbox_set {id : Nat} {o : Outbox} (has : s.outbox? id = some o) (o' : Outbox) (j : Nat) :
    (s.outboxes.set id o')[j]? = if j = id then some o' else s.outbox? j := by
  rw [List.getElem?_set]
  by_cases same : id = j
  · simp [← same, outbox_lt has]
  · simp [same, Ne.symm same, outbox?]

theorem outbox_append (s : Shard) (o : Outbox) (j : Nat) :
    (s.outboxes ++ [o])[j]? = if j = s.outboxes.length then some o else s.outbox? j := by
  rcases Nat.lt_trichotomy j s.outboxes.length with lt | rfl | gt
  · rw [List.getElem?_append_left lt, if_neg (Nat.ne_of_lt lt), outbox?]
  · simp
  · have past : s.outbox? j = none := List.getElem?_eq_none (Nat.le_of_lt gt)
    rw [if_neg (Nat.ne_of_gt gt), past, List.getElem?_eq_none]
    rw [List.length_append]
    exact gt

theorem outbox_append_cases {o o' : Outbox} {j : Nat} (has : (s.outboxes ++ [o])[j]? = some o') :
    s.outbox? j = some o' ∨ j = s.outboxes.length ∧ o' = o := by
  rw [outbox_append] at has
  split at has
  · rename_i new
    exact .inr ⟨new, (Option.some_inj.1 has).symm⟩
  · exact .inl has

theorem detach_eq {id : Nat} {o : Outbox} (has : s.outbox? id = some o) :
    s.outboxes.modify id Outbox.detach = s.outboxes.set id o.detach := by
  refine List.ext_getElem? fun j => ?_
  rw [List.getElem?_modify, List.getElem?_set]
  by_cases same : id = j
  · subst same
    obtain ⟨lt, eq⟩ := List.getElem?_eq_some_iff.1 has
    simp [lt, eq]
  · simp [same]

theorem settle_settles (s : Shard) (id : Nat) (phase : Phase) (o : Outbox)
    (said : List Outbox.Output) : ∃ stage after, Settles id o.handle said phase stage after ∧
      s.settle id phase o said =
        ({ s with outboxes := s.outboxes.set id o, stage := stage },
          said.map (.outbox id) ++ after) := by
  cases ended : over? said with
  | none => exact ⟨_, _, .waits ended, by simp [settle, ended, saying]⟩
  | some alive =>
    cases alive with
    | true => exact ⟨_, _, .goesOn ended (.inl rfl), by simp [settle, ended, saying]⟩
    | false =>
      cases phase with
      | pass left => exact ⟨_, _, .escalates ended, by simp [settle, ended, saying, escalate]⟩
      | drain | finalDrain | finalClose =>
        exact ⟨_, _, .goesOn ended (.inr (by simp)), by simp [settle, ended, saying]⟩

theorem take_change {m : Move} {s₁ : Shard} {id : Nat} {phase : Phase} {b : Outbox.Action}
    (job : s.Job clock m s₁ id phase b) (h : s₁.take p clock id phase b = some (s', out)) :
    Change p clock s (.move m) s' out := by
  have same : s₁.outboxes = s.outboxes := by cases job <;> rfl
  simp only [take, Option.bind_eq_bind, Option.bind_eq_some_iff, Option.pure_def,
    Option.some.injEq] at h
  obtain ⟨o, has, ⟨o', said⟩, taken, eq⟩ := h
  obtain ⟨stage, after, settles, eq'⟩ := settle_settles s₁ id phase o' said
  have has' : s.outbox? id = some o := by rw [outbox?, ← same]; exact has
  rw [eq', same] at eq
  obtain ⟨rfl, rfl⟩ := Prod.mk.inj eq
  exact .works job has' taken settles

theorem proceed_change {phase : Phase} (at_ : s.stage = .ready phase)
    (h : s.proceed p clock phase = some (s', out)) : Change p clock s (.move .proceed) s' out := by
  cases phase with
  | drain left =>
    cases left with
    | nil => simp [proceed] at h
    | cons id left => exact take_change (.drain at_) h
  | pass left =>
    cases left with
    | nil =>
      obtain ⟨rfl, rfl⟩ := by simpa [proceed] using h
      exact .parks at_
    | cons id left => exact take_change (.pass at_) h
  | finalDrain left =>
    cases left with
    | nil => simp [proceed] at h
    | cons id left => exact take_change (.finalDrain at_) h
  | finalClose left =>
    cases left with
    | nil =>
      obtain ⟨rfl, rfl⟩ := by simpa [proceed] using h
      exact .halts at_
    | cons h' left =>
      cases known : s.liveId? h' with
      | none =>
        obtain ⟨rfl, rfl⟩ := by simpa [proceed, known] using h
        exact .skips at_ known
      | some id =>
        exact take_change (.finalClose at_ known) (by simpa [proceed, known, close] using h)

theorem move_change {m : Move} (h : s.move p clock m = some (s', out)) :
    Change p clock s (.move m) s' out := by
  cases m with
  | start =>
    obtain ⟨at_, rfl, rfl⟩ := by simpa [move] using h
    exact .starts at_
  | wake =>
    simp only [move] at h
    split at h
    · rename_i at_
      obtain ⟨rfl, rfl⟩ := by simpa using h
      exact .wakes at_
    · simp at h
  | poll =>
    simp only [move] at h
    split at h
    · rename_i at_
      obtain ⟨rfl, rfl⟩ := by simpa using h
      exact .polls at_
    · simp at h
  | stop =>
    simp only [move] at h
    split at h
    · rename_i at_
      obtain ⟨rfl, rfl⟩ := by simpa using h
      exact .stops at_
    · simp at h
  | survey order =>
    obtain ⟨⟨at_, perm⟩, rfl, rfl⟩ := by simpa [move] using h
    exact .surveys at_ (List.isPerm_iff.1 perm)
  | sweep order =>
    obtain ⟨⟨at_, perm⟩, rfl, rfl⟩ := by simpa [move] using h
    exact .sweeps at_ (List.isPerm_iff.1 perm)
  | proceed =>
    simp only [move] at h
    split at h
    · rename_i at_
      exact proceed_change at_ h
    · simp at h
  | answer x =>
    simp only [move] at h
    split at h
    · rename_i at_
      exact take_change (.answer at_) h
    · simp at h
  | ended result =>
    simp only [move] at h
    split at h
    · rename_i at_
      cases result with
      | ok u =>
        obtain ⟨rfl, rfl⟩ := by simpa using h
        exact .ends at_
      | error e =>
        obtain ⟨rfl, rfl⟩ := by simpa using h
        exact .ends at_
    · simp at h

theorem step_change (h : step p clock s a = some (s', out)) : Change p clock s a s' out := by
  cases a with
  | add addr n =>
    cases known : s.liveId? n.handle with
    | some id =>
      simp only [step, add, known, offer, Option.map_eq_some_iff] at h
      obtain ⟨o, has, eq⟩ := h
      obtain ⟨rfl, rfl⟩ := Prod.mk.inj eq
      rw [outbox?, wakeUp_outboxes] at has
      rw [wakeUp_with, wakeUp_outboxes]
      exact .adds known has
    | none =>
      obtain ⟨rfl, rfl⟩ := by simpa [step, add, known, offer, create?, outbox?, saying] using h
      have made : Change p clock s (.add addr n) _ _ := .creates known
      rw [← wakeUp_with { s with
        outboxes := s.outboxes ++ [.create n.handle addr]
        live := s.live ++ [(n.handle, s.outboxes.length)] }] at made
      simpa using made
  | offer id n =>
    simp only [step, offer, Option.map_eq_some_iff] at h
    obtain ⟨o, has, eq⟩ := h
    obtain ⟨rfl, rfl⟩ := Prod.mk.inj eq
    exact .offers has
  | delete h' =>
    cases known : s.liveId? h' with
    | none =>
      obtain ⟨rfl, rfl⟩ := by simpa [step, delete, known] using h
      exact .misses known
    | some id =>
      simp only [step, delete, known, Option.some.injEq, Prod.mk.injEq] at h
      obtain ⟨rfl, rfl⟩ := h
      exact .deletes known
  | move m => exact move_change h

end SessionCourier.Shard
