import SessionCourier.Proofs.Shard.Change

set_option autoImplicit false

namespace SessionCourier.Shard

variable {p : Policy} {clock : Nat} {s s' : Shard} {a : Action} {out : List Output}

def Output.outbox? : Output → Option (Nat × Outbox.Output)
  | .outbox id x => some (id, x)
  | _ => none

/-- An action of an outbox, and the outbox as it is when it is taken. -/
structure Deed where
  id : Nat
  outbox : Outbox
  action : Outbox.Action

/-- The outbox that the worker goes on with, and what it does there. -/
def job? (s : Shard) (clock : Nat) : Move → Option (Nat × Outbox.Action)
  | .proceed =>
    match s.stage with
    | .ready (.drain (id :: _)) | .ready (.finalDrain (id :: _)) => some (id, .call task .close)
    | .ready (.pass (id :: _)) => some (id, .call task (.flush clock))
    | .ready (.finalClose (h :: _)) => (s.liveId? h).map (·, .call task .close)
    | _ => none
  | .answer x =>
    match s.stage with
    | .busy id _ => some (id, .answer x)
    | _ => none
  | _ => none

def deedAt? (s : Shard) (id : Nat) (b : Outbox.Action) : Option Deed :=
  (s.outbox? id).map (⟨id, ·, b⟩)

def deed? (s : Shard) (clock : Nat) : Action → Option Deed
  | .add addr n =>
    match s.liveId? n.handle with
    | some id => s.deedAt? id (.enqueue n)
    | none => some ⟨s.outboxes.length, .create n.handle addr, .enqueue n⟩
  | .offer id n => s.deedAt? id (.enqueue n)
  | .delete h => s.liveId? h >>= (s.deedAt? · .detach)
  | .move m => s.job? clock m >>= fun job => s.deedAt? job.1 job.2

/-- What becomes of the outboxes, and what they say. -/
inductive Acts (p : Policy) (clock : Nat) (s : Shard) (a : Action) :
    Option Deed → List Outbox → List (Nat × Outbox.Output) → Prop where
  | rests : Acts p clock s a none s.outboxes []
  | acts {id : Nat} {o o' : Outbox} {b : Outbox.Action} {said : List Outbox.Output}
      (has : s.outbox? id = some o) (taken : Outbox.step p clock o b = some (o', said)) :
      Acts p clock s a (some ⟨id, o, b⟩) (s.outboxes.set id o') (said.map (id, ·))
  | begins {addr : Address} {n : Notice} {o' : Outbox} {said : List Outbox.Output}
      (adds : a = .add addr n) (new : s.liveId? n.handle = none)
      (taken : Outbox.step p clock (.create n.handle addr) (.enqueue n) = some (o', said)) :
      Acts p clock s a (some ⟨s.outboxes.length, .create n.handle addr, .enqueue n⟩)
        (s.outboxes ++ [o']) (said.map (s.outboxes.length, ·))

theorem outputs_of_outbox (said : List Outbox.Output) (id : Nat) :
    (said.map (Output.outbox id)).filterMap Output.outbox? = said.map (id, ·) := by
  rw [List.filterMap_map, ← List.filterMap_eq_map]
  rfl

theorem acts_at {id : Nat} {o o' : Outbox} {b : Outbox.Action} {said : List Outbox.Output}
    (has : s.outbox? id = some o) (taken : Outbox.step p clock o b = some (o', said)) :
    Acts p clock s a (s.deedAt? id b) (s.outboxes.set id o')
      ((said.map (.outbox id)).filterMap Output.outbox?) := by
  rw [deedAt?, has, outputs_of_outbox]
  exact .acts has taken

theorem Job.job {m : Move} {s₁ : Shard} {id : Nat} {phase : Phase} {b : Outbox.Action}
    (job : s.Job clock m s₁ id phase b) : s.job? clock m = some (id, b) := by
  cases job with
  | drain at_ | pass at_ | finalDrain at_ | answer at_ => rw [job?, at_]
  | finalClose at_ known => simp [job?, at_, known]

theorem Settles.outputs {id : Nat} {h : Handle} {said : List Outbox.Output} {phase : Phase}
    {stage : Stage} {after : List Output} (settles : Settles id h said phase stage after) :
    after.filterMap Output.outbox? = [] := by
  cases settles <;> rfl

theorem Change.acts (change : Change p clock s a s' out) :
    Acts p clock s a (s.deed? clock a) s'.outboxes (out.filterMap Output.outbox?) := by
  cases change with
  | @adds addr n id o known has =>
    rw [wakeUp_outboxes, deed?, known]
    exact acts_at has rfl
  | @creates addr n new =>
    have taken : Outbox.step p clock (.create n.handle addr) (.enqueue n) =
      some ((Outbox.create n.handle addr).enqueue n) := rfl
    rw [wakeUp_outboxes, deed?, new, List.filterMap_cons_none rfl, outputs_of_outbox]
    exact .begins rfl new taken
  | @offers id n o has => exact acts_at has rfl
  | @misses h unknown =>
    rw [deed?, unknown]
    exact .rests
  | @deletes h id known =>
    rw [wakeUp_outboxes, deed?, known]
    cases has : s.outbox? id with
    | none =>
      have same : s.outboxes.modify id Outbox.detach = s.outboxes :=
        List.modify_eq_self (List.getElem?_eq_none_iff.1 has)
      have idle : s.deedAt? id .detach = none := by rw [deedAt?, has]; rfl
      rw [same, Option.bind_eq_bind, Option.bind_some, idle]
      exact .rests
    | some o =>
      have taken : Outbox.step p clock o .detach = some (o.detach, []) := rfl
      rw [detach_eq has]
      exact acts_at has taken
  | starts | wakes | polls | stops | surveys | sweeps =>
    exact .rests
  | parks at_ | halts at_ =>
    have idle : s.deed? clock (.move .proceed) = none := by simp [deed?, job?, at_]
    rw [idle]
    exact .rests
  | skips at_ unknown =>
    have idle : s.deed? clock (.move .proceed) = none := by simp [deed?, job?, at_, unknown]
    rw [idle]
    exact .rests
  | works job has taken settles =>
    rw [deed?, job.job, List.filterMap_append, settles.outputs, List.append_nil]
    exact acts_at has taken
  | @ends h left result at_ =>
    cases result with
    | ok => exact .rests
    | error => exact .rests

theorem deedAt_eq_some {id id' : Nat} {o : Outbox} {b b' : Outbox.Action} :
    s.deedAt? id b = some ⟨id', o, b'⟩ ↔ id = id' ∧ b = b' ∧ s.outbox? id = some o := by
  rw [deedAt?, Option.map_eq_some_iff]
  constructor
  · rintro ⟨o', has, eq⟩
    obtain ⟨rfl, rfl, rfl⟩ := Deed.mk.inj eq
    exact ⟨rfl, rfl, has⟩
  · rintro ⟨rfl, rfl, has⟩
    exact ⟨o, has, rfl⟩

theorem job_only {m : Move} {id : Nat} {b : Outbox.Action} (job : s.job? clock m = some (id, b)) :
    (∀ j phase, s.stage = .busy j phase → j = id) ∧
      ((∃ job, b = .call task job) ∨ ∃ x, b = .answer x) := by
  unfold job? at job
  split at job
  · split at job
    · rename_i at_
      obtain ⟨rfl, rfl⟩ := Prod.mk.inj (Option.some_inj.1 job)
      exact ⟨by simp [at_], .inl ⟨_, rfl⟩⟩
    · rename_i at_
      obtain ⟨rfl, rfl⟩ := Prod.mk.inj (Option.some_inj.1 job)
      exact ⟨by simp [at_], .inl ⟨_, rfl⟩⟩
    · rename_i at_
      obtain ⟨rfl, rfl⟩ := Prod.mk.inj (Option.some_inj.1 job)
      exact ⟨by simp [at_], .inl ⟨_, rfl⟩⟩
    · rename_i at_
      obtain ⟨id', -, eq⟩ := Option.map_eq_some_iff.1 job
      obtain ⟨-, rfl⟩ := Prod.mk.inj eq
      exact ⟨by simp [at_], .inl ⟨_, rfl⟩⟩
    · cases job
  · split at job
    · rename_i at_
      obtain ⟨rfl, rfl⟩ := Prod.mk.inj (Option.some_inj.1 job)
      refine ⟨fun j phase busy => ?_, .inr ⟨_, rfl⟩⟩
      exact (Stage.busy.inj (at_.symm.trans busy)).1.symm
    · cases job
  · cases job

theorem deed_of_move {m : Move} {id : Nat} {o : Outbox} {b : Outbox.Action}
    (deed : s.deed? clock (.move m) = some ⟨id, o, b⟩) :
    s.job? clock m = some (id, b) ∧ s.outbox? id = some o := by
  rw [deed?, Option.bind_eq_bind, Option.bind_eq_some_iff] at deed
  obtain ⟨⟨id', b'⟩, job, deed⟩ := deed
  obtain ⟨rfl, rfl, has⟩ := deedAt_eq_some.1 deed
  exact ⟨job, has⟩

/-- Who does something with an outbox, and why with this one. -/
inductive Does (s : Shard) (clock : Nat) : Action → Nat → Outbox → Outbox.Action → Prop where
  | adds {addr : Address} {n : Notice} {id : Nat} {o : Outbox}
      (known : s.liveId? n.handle = some id) (has : s.outbox? id = some o) :
      Does s clock (.add addr n) id o (.enqueue n)
  | creates {addr : Address} {n : Notice} (new : s.liveId? n.handle = none) :
      Does s clock (.add addr n) s.outboxes.length (.create n.handle addr) (.enqueue n)
  | offers {id : Nat} {n : Notice} {o : Outbox} (has : s.outbox? id = some o) :
      Does s clock (.offer id n) id o (.enqueue n)
  | deletes {h : Handle} {id : Nat} {o : Outbox} (known : s.liveId? h = some id)
      (has : s.outbox? id = some o) : Does s clock (.delete h) id o .detach
  | works {m : Move} {id : Nat} {o : Outbox} {b : Outbox.Action}
      (job : s.job? clock m = some (id, b)) (has : s.outbox? id = some o) :
      Does s clock (.move m) id o b

theorem deed_does {id : Nat} {o : Outbox} {b : Outbox.Action}
    (deed : s.deed? clock a = some ⟨id, o, b⟩) : s.Does clock a id o b := by
  cases a with
  | add addr n =>
    cases known : s.liveId? n.handle with
    | none =>
      obtain ⟨rfl, rfl, rfl⟩ := by simpa [deed?, known] using deed
      exact .creates known
    | some id' =>
      simp only [deed?, known, deedAt_eq_some] at deed
      obtain ⟨rfl, rfl, has⟩ := deed
      exact .adds known has
  | offer id' n =>
    obtain ⟨rfl, rfl, has⟩ := deedAt_eq_some.1 deed
    exact .offers has
  | delete h =>
    rw [deed?, Option.bind_eq_bind, Option.bind_eq_some_iff] at deed
    obtain ⟨id', known, deed⟩ := deed
    obtain ⟨rfl, rfl, has⟩ := deedAt_eq_some.1 deed
    exact .deletes known has
  | move m =>
    obtain ⟨job, has⟩ := deed_of_move deed
    exact .works job has

theorem deed_of_enqueue {id : Nat} {o : Outbox} {n : Notice}
    (deed : s.deed? clock a = some ⟨id, o, .enqueue n⟩) :
    (∃ addr, a = .add addr n ∧ ((s.liveId? n.handle = some id ∧ s.outbox? id = some o) ∨
      o = .create n.handle addr)) ∨ (a = .offer id n ∧ s.outbox? id = some o) := by
  cases deed_does deed with
  | adds known has => exact .inl ⟨_, rfl, .inl ⟨known, has⟩⟩
  | creates => exact .inl ⟨_, rfl, .inr rfl⟩
  | offers has => exact .inr ⟨rfl, has⟩
  | works job => rcases (job_only job).2 with ⟨job, eq⟩ | ⟨x, eq⟩ <;> cases eq

theorem deed_of_detach {id : Nat} {o : Outbox} (deed : s.deed? clock a = some ⟨id, o, .detach⟩) :
    ∃ h, a = .delete h ∧ s.liveId? h = some id ∧ s.outbox? id = some o := by
  cases deed_does deed with
  | deletes known has => exact ⟨_, rfl, known, has⟩
  | works job => rcases (job_only job).2 with ⟨job, eq⟩ | ⟨x, eq⟩ <;> cases eq

theorem deed_of_worker {id : Nat} {o : Outbox} {b : Outbox.Action}
    (deed : s.deed? clock a = some ⟨id, o, b⟩) (adds : ∀ n, b ≠ .enqueue n)
    (detaches : b ≠ .detach) : ∀ j phase, s.stage = .busy j phase → j = id := by
  cases deed_does deed with
  | adds | creates | offers => exact absurd rfl (adds _)
  | deletes => exact absurd rfl detaches
  | works job => exact (job_only job).1

end SessionCourier.Shard
