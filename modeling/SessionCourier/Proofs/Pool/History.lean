import SessionCourier.Proofs.Outbox.History
import SessionCourier.Proofs.Pool.Change

set_option autoImplicit false

/-!
# What can be seen of a pool

The turns of a pool hold the turns of each of its outboxes. `deeds` picks them out, and `Traced` says
that those of one outbox are a trace of it, from its creation on. So whatever holds of an outbox that
is used by itself holds of every outbox of a pool.
-/

namespace SessionCourier.Pool

abbrev Turn := SessionCourier.Turn Pool Action Output

abbrev Place := Nat × Nat

def outboxAt? (p : Pool) (at_ : Place) : Option Outbox := p.outbox? at_.1 at_.2

def Output.outbox? : Output → Option (Place × Outbox.Output)
  | .shard k x => x.outbox?.map fun said => ((k, said.1), said.2)
  | _ => none

/-- The turn of an outbox that a turn of the pool is. -/
def deed? (t : Turn) : Option (Place × Outbox.Turn) := do
  let (k, b) ← t.before.errand? t.action
  let s ← t.before.shards[k]?
  let d ← s.deed? t.clock b
  return ((k, d.id), ⟨t.clock, d.outbox, d.action, (t.outputs.filterMap Output.outbox?).map (·.2)⟩)

def deeds (ts : List Turn) : List (Place × Outbox.Turn) := ts.filterMap deed?

section
variable {κ β : Type} [DecidableEq κ]

/-- What belongs to one outbox, or to one shard. -/
def atPlace (at_ : κ) (l : List (κ × β)) : List β :=
  l.filterMap fun x => if x.1 = at_ then some x.2 else none

variable {at_ : κ} {l l' : List (κ × β)}

@[simp] theorem atPlace_nil : atPlace at_ ([] : List (κ × β)) = [] := rfl

@[simp] theorem atPlace_append : atPlace at_ (l ++ l') = atPlace at_ l ++ atPlace at_ l' :=
  List.filterMap_append

theorem mem_atPlace {b : β} : b ∈ atPlace at_ l ↔ (at_, b) ∈ l := by
  rw [atPlace, List.mem_filterMap]
  constructor
  · rintro ⟨x, mem, eq⟩
    split at eq
    · rename_i same
      obtain rfl := Option.some_inj.1 eq
      exact same ▸ mem
    · cases eq
  · intro mem
    exact ⟨(at_, b), mem, if_pos rfl⟩

@[simp] theorem atPlace_single {x : κ × β} :
    atPlace at_ [x] = if x.1 = at_ then [x.2] else [] := by
  by_cases same : x.1 = at_ <;> simp [atPlace, same]

theorem atPlace_map {said : List β} {k : κ} :
    atPlace at_ (said.map (k, ·)) = if k = at_ then said else [] := by
  rw [atPlace, List.filterMap_map]
  by_cases same : k = at_
  · have all : (fun x : κ × β => if x.1 = at_ then some x.2 else none) ∘ (k, ·) = some := by
      funext b
      exact if_pos same
    rw [all, List.filterMap_some, if_pos same]
  · rw [if_neg same, List.filterMap_eq_nil_iff]
    intro b _
    exact if_neg same

theorem atPlace_filterMap {γ : Type} (f : β → Option γ) (l : List (κ × β)) :
    atPlace at_ (l.filterMap fun x => (f x.2).map (x.1, ·)) = (atPlace at_ l).filterMap f := by
  rw [atPlace, atPlace, List.filterMap_filterMap, List.filterMap_filterMap]
  congr 1
  funext x
  by_cases same : x.1 = at_
  · cases eq : f x.2 <;> simp [same, eq]
  · cases eq : f x.2 <;> simp [same]

theorem atPlace_flatMap {γ : Type} (f : β → List γ) (l : List (κ × β)) :
    atPlace at_ (l.flatMap fun x => (f x.2).map (x.1, ·)) = (atPlace at_ l).flatMap f := by
  induction l with
  | nil => rfl
  | cons x rest ih =>
    rw [← List.singleton_append, List.flatMap_append, atPlace_append, ih, atPlace_append,
      List.flatMap_append, List.flatMap_singleton, atPlace_map, atPlace_single]
    split <;> simp

end

def spoken (ts : List Turn) : List (Place × Outbox.Output) := said Output.outbox? ts

def heard {β : Type} (f : Outbox.Output → Option β) (ts : List Turn) : List (Place × β) :=
  (spoken ts).filterMap fun x => (f x.2).map (x.1, ·)

@[simp] theorem heard_append {β : Type} {f : Outbox.Output → Option β} {ts us : List Turn} :
    heard f (ts ++ us) = heard f ts ++ heard f us := by
  rw [heard, spoken, said_append, List.filterMap_append]
  rfl

def accepted (ts : List Turn) : List (Place × Notice) := heard Outbox.Output.accepted? ts

def invoked (ts : List Turn) : List (Place × Notice) := heard Outbox.Output.invoked? ts

def connects (ts : List Turn) : List (Place × Address) := heard Outbox.Output.connected? ts

def released (ts : List Turn) : List (Place × Nat) := heard Outbox.Output.released? ts

def delivered (ts : List Turn) : List (Place × Notice) :=
  (deeds ts).filterMap fun x => (x.2.before.delivers? x.2.action).map (x.1, ·)

variable {clock : Nat} {p p' : Pool} {a : Action} {out : List Output} {ts : List Turn}

/-- What becomes of the outboxes, and what they say. -/
inductive Acts (p p' : Pool) :
    Option (Place × Outbox.Turn) → List (Place × Outbox.Output) → Prop where
  | rests (same : ∀ x, p'.outboxAt? x = p.outboxAt? x) : Acts p p' none []
  | acts {at_ : Place} {u : Outbox.Turn} {o' : Outbox} (has : p.outboxAt? at_ = some u.before)
      (taken : Outbox.step p.policy u.clock u.before u.action = some (o', u.outputs))
      (now : ∀ x, p'.outboxAt? x = if x = at_ then some o' else p.outboxAt? x) :
      Acts p p' (some (at_, u)) (u.outputs.map (at_, ·))
  | begins {at_ : Place} {u : Outbox.Turn} {o' : Outbox} {addr : Address} {n : Notice}
      (routed : at_.1 = p.shardOf n.handle) (new : p.outboxAt? at_ = none)
      (fresh : u.before = .create n.handle addr) (adds : u.action = .enqueue n)
      (taken : Outbox.step p.policy u.clock u.before u.action = some (o', u.outputs))
      (now : ∀ x, p'.outboxAt? x = if x = at_ then some o' else p.outboxAt? x) :
      Acts p p' (some (at_, u)) (u.outputs.map (at_, ·))

theorem places_of_outputs (said : List Outbox.Output) (k id : Nat) :
    ((said.map (id, ·)).map fun x => ((k, x.1), x.2)) = said.map ((k, id), ·) := by
  rw [List.map_map]
  rfl

theorem outputs_of_place (said : List Outbox.Output) (id : Nat) :
    (said.map (id, ·)).map (·.2) = said := by
  rw [List.map_map]
  exact List.map_id said

theorem outboxAt_of_shard {k id : Nat} {s : Shard} (has : p.shards[k]? = some s) :
    p.outboxAt? (k, id) = s.outbox? id := by
  rw [outboxAt?, outbox?, has]
  rfl

theorem outboxAt_set {k : Nat} {s s' : Shard} (has : p.shards[k]? = some s) (x : Place) :
    { p with shards := p.shards.set k s' }.outboxAt? x =
      if x.1 = k then s'.outbox? x.2 else p.outboxAt? x := by
  have lt := (List.getElem?_eq_some_iff.1 has).1
  simp only [outboxAt?, outbox?, List.getElem?_set]
  by_cases same : k = x.1
  · simp [same, same ▸ lt]
  · simp [same, Ne.symm same]

theorem outputs_of_places (out : List Output) :
    out.filterMap Output.outbox? = (out.filterMap Output.shard?).filterMap fun x =>
      x.2.outbox?.map fun said => ((x.1, said.1), said.2) := by
  rw [List.filterMap_filterMap]
  congr 1
  funext x
  cases x <;> rfl

theorem outputs_of_works {k : Nat} {said : List Shard.Output} {spoke : List (Nat × Outbox.Output)}
    (tells : out.filterMap Output.shard? = said.map (k, ·))
    (spoke_eq : said.filterMap Shard.Output.outbox? = spoke) :
    out.filterMap Output.outbox? = spoke.map fun x => ((k, x.1), x.2) := by
  rw [outputs_of_places, tells, ← spoke_eq, List.filterMap_map, List.map_filterMap]
  rfl

/-- When one outbox of the shard is replaced, the others stay as they are. -/
theorem outboxAt_works {k id : Nat} {s s' : Shard} {o' : Outbox} (has : p.shards[k]? = some s)
    (now : ∀ j, s'.outbox? j = if j = id then some o' else s.outbox? j) (x : Place) :
    { p with shards := p.shards.set k s' }.outboxAt? x =
      if x = (k, id) then some o' else p.outboxAt? x := by
  obtain ⟨k', j⟩ := x
  rw [outboxAt_set has, now]
  by_cases same : k' = k
  · subst same
    simp [outboxAt_of_shard has]
  · simp [same]

theorem Change.acts (change : Change clock p a p' out) :
    p'.policy = p.policy ∧ Acts p p' (deed? ⟨clock, p, a, out⟩) (out.filterMap Output.outbox?) := by
  cases change with
  | rests idle policy shards silent =>
    refine ⟨policy, ?_⟩
    have deedless : deed? ⟨clock, p, a, out⟩ = none := by simp [deed?, idle]
    rw [deedless, outputs_of_places, silent]
    exact .rests fun x => by rw [outboxAt?, outboxAt?, outbox?, outbox?, shards]
  | @works k b s s' said _ errand has _ taken tells =>
    refine ⟨rfl, ?_⟩
    have acts := (Shard.step_change taken).acts
    generalize deed : s.deed? clock b = d at acts
    generalize outboxes : s'.outboxes = os at acts
    generalize spoke : said.filterMap Shard.Output.outbox? = said' at acts
    have out_eq := outputs_of_works tells spoke
    have deed_eq : deed? ⟨clock, p, a, out⟩ = d.map fun d =>
        ((k, d.id), ⟨clock, d.outbox, d.action, said'.map (·.2)⟩) := by
      simp [deed?, errand, has, deed, out_eq, Option.map_eq_bind, Function.comp_def]
    have own (id : Nat) : p.outboxAt? (k, id) = s.outbox? id := outboxAt_of_shard has
    rw [deed_eq, out_eq]
    cases acts with
    | rests =>
      refine .rests fun ⟨k', id'⟩ => ?_
      rw [outboxAt_set has, Shard.outbox?, outboxes]
      split
      · rename_i same
        rw [show k' = k from same, own, Shard.outbox?]
      · rfl
    | @acts id o o' b said has' taken' =>
      rw [places_of_outputs, Option.map_some, outputs_of_place]
      refine .acts ((own id).trans has') taken' (outboxAt_works has fun j => ?_)
      rw [Shard.outbox?, outboxes, Shard.outbox_set has']
    | @begins addr n o' said adds new taken' =>
      subst adds
      rw [places_of_outputs, Option.map_some, outputs_of_place]
      have absent : s.outbox? s.outboxes.length = none := List.getElem?_eq_none (Nat.le_refl _)
      refine .begins (errand_of_add errand).1 ((own _).trans absent) rfl rfl taken'
        (outboxAt_works has fun j => ?_)
      rw [Shard.outbox?, outboxes, Shard.outbox_append]

/-- The turns of each outbox are a trace of it, and there are none of an outbox that is not there. -/
structure Traced (ts : List Turn) (p : Pool) : Prop where
  runs : ∀ x o, p.outboxAt? x = some o →
    ∃ addr, Trace (Outbox.step p.policy) (.create o.handle addr) (atPlace x (deeds ts)) o
  absent : ∀ x, p.outboxAt? x = none → atPlace x (deeds ts) = []
  spoken : spoken ts = (deeds ts).flatMap fun x => x.2.outputs.map (x.1, ·)

@[simp] theorem deeds_append {ts us : List Turn} : deeds (ts ++ us) = deeds ts ++ deeds us :=
  List.filterMap_append

@[simp] theorem deeds_single {t : Turn} : deeds [t] = (deed? t).toList := by
  cases h : deed? t <;> simp [deeds, h]

namespace Traced

theorem still (traced : Traced ts p) {t : Turn} (idle : deed? t = none)
    (silent : t.outputs.filterMap Output.outbox? = []) (policy : p'.policy = p.policy)
    (same : ∀ x, p'.outboxAt? x = p.outboxAt? x) : Traced (ts ++ [t]) p' where
  runs x o has := by
    rw [same] at has
    simpa [idle, policy] using traced.runs x o has
  absent x missing := by
    rw [same] at missing
    simpa [idle] using traced.absent x missing
  spoken := by simpa [Pool.spoken, idle, silent] using traced.spoken

theorem tail (traced : Traced ts p) {t : Turn} {at_ : Place} {u : Outbox.Turn} {o' : Outbox}
    (deed : deed? t = some (at_, u))
    (spoke : t.outputs.filterMap Output.outbox? = u.outputs.map (at_, ·))
    (policy : p'.policy = p.policy)
    (before : ∃ addr, Trace (Outbox.step p.policy) (.create u.before.handle addr)
      (atPlace at_ (deeds ts)) u.before)
    (taken : Outbox.step p.policy u.clock u.before u.action = some (o', u.outputs))
    (now : ∀ x, p'.outboxAt? x = if x = at_ then some o' else p.outboxAt? x) :
    Traced (ts ++ [t]) p' where
  runs x o has := by
    rw [now] at has
    split at has
    · rename_i same
      obtain rfl := Option.some_inj.1 has
      obtain ⟨addr, run⟩ := before
      refine ⟨addr, ?_⟩
      rw [(Outbox.step_change taken).handle, policy]
      simpa [deed, same] using run.tail taken
    · rename_i other
      obtain ⟨addr, run⟩ := traced.runs x o has
      refine ⟨addr, ?_⟩
      simpa [deed, Ne.symm other, policy] using run
  absent x missing := by
    rw [now] at missing
    split at missing
    · simp at missing
    · rename_i other
      simpa [deed, Ne.symm other] using traced.absent x missing
  spoken := by simpa [Pool.spoken, deed, spoke] using traced.spoken

theorem step (traced : Traced ts p) (h : step clock p a = some (p', out)) :
    Traced (ts ++ [⟨clock, p, a, out⟩]) p' := by
  obtain ⟨policy, acts⟩ := (step_change h).acts
  generalize deed : deed? ⟨clock, p, a, out⟩ = d at acts
  generalize spoke : out.filterMap Output.outbox? = said at acts
  cases acts with
  | rests same => exact traced.still deed spoke policy same
  | acts has taken now =>
    exact traced.tail deed spoke policy (traced.runs _ _ has) taken now
  | @begins at_ u o' addr n routed new fresh adds taken now =>
    refine traced.tail deed spoke policy ⟨addr, ?_⟩ taken now
    rw [traced.absent at_ new, fresh]
    exact .refl

end Traced

structure Fresh (p : Pool) : Prop where
  shards : p.shards = (List.range p.shards.length).map Shard.create
  running : p.shutdown = .running

theorem start_fresh {settings : Settings} {registry : Registry} {runtime : Bool}
    (h : start settings registry runtime = .ok (p, out)) : Fresh p := by
  unfold start at h
  split at h
  · cases h
  · split at h
    · cases h
    · split at h
      · cases h
      · cases h
        exact ⟨by simp, rfl⟩

theorem Fresh.shard {k : Nat} {s : Shard} (fresh : Fresh p) (has : p.shards[k]? = some s) :
    s = Shard.create k := by
  rw [fresh.shards, List.getElem?_map, Option.map_eq_some_iff] at has
  obtain ⟨j, at_, rfl⟩ := has
  obtain ⟨-, rfl⟩ := List.getElem?_eq_some_iff.1 at_
  rw [List.getElem_range]

theorem Fresh.outboxAt (fresh : Fresh p) (x : Place) : p.outboxAt? x = none := by
  cases has : p.shards[x.1]? with
  | none => simp [outboxAt?, outbox?, has]
  | some s =>
    obtain rfl := fresh.shard has
    simp [outboxAt?, outbox?, has, Shard.outbox?, Shard.create]

theorem traced_of_trace {p₀ : Pool} (fresh : Fresh p₀) (run : Trace step p₀ ts p) : Traced ts p := by
  induction run with
  | refl =>
    exact {
      runs := fun x o has => by simp [fresh.outboxAt] at has
      absent := fun _ _ => rfl
      spoken := rfl }
  | tail _ last ih => exact ih.step last

theorem Traced.heard {β : Type} (traced : Traced ts p) (f : Outbox.Output → Option β) (x : Place) :
    atPlace x (heard f ts) = said f (atPlace x (deeds ts)) := by
  rw [Pool.heard, atPlace_filterMap, traced.spoken, atPlace_flatMap, List.filterMap_flatMap, said]

theorem delivered_at (ts : List Turn) (x : Place) :
    atPlace x (delivered ts) = Outbox.delivered (atPlace x (deeds ts)) :=
  atPlace_filterMap (fun u => u.before.delivers? u.action) (deeds ts)

theorem Traced.seen {x : Place} {n : Notice} (traced : Traced ts p)
    (mem : (x, n) ∈ invoked ts ++ delivered ts) : ∃ o, p.outboxAt? x = some o := by
  cases has : p.outboxAt? x with
  | some o => exact ⟨o, rfl⟩
  | none =>
    have absent := traced.absent x has
    rcases List.mem_append.1 mem with mem | mem
    · have := mem_atPlace.2 mem
      rw [invoked, traced.heard, absent] at this
      cases this
    · have := mem_atPlace.2 mem
      rw [delivered_at, absent] at this
      cases this

@[simp] theorem delivered_append {us : List Turn} :
    delivered (ts ++ us) = delivered ts ++ delivered us := by
  rw [delivered, deeds_append, List.filterMap_append]
  rfl

theorem acts_of_idle (h : step clock p a = some (p', out)) (idle : deed? ⟨clock, p, a, out⟩ = none) :
    (∀ x, p'.outboxAt? x = p.outboxAt? x) ∧ out.filterMap Output.outbox? = [] := by
  have acts := (step_change h).acts.2
  rw [idle] at acts
  generalize out.filterMap Output.outbox? = said at acts ⊢
  cases acts with
  | rests same => exact ⟨same, rfl⟩

theorem acts_of_deed {x : Place} {u : Outbox.Turn} (h : step clock p a = some (p', out))
    (deed : deed? ⟨clock, p, a, out⟩ = some (x, u)) :
    ∃ o', Outbox.Change p.policy u.clock u.before u.action o' u.outputs ∧
      (∀ y, p'.outboxAt? y = if y = x then some o' else p.outboxAt? y) ∧
      out.filterMap Output.outbox? = u.outputs.map (x, ·) ∧
      ∀ o, p.outboxAt? x = some o → u.before = o := by
  have acts := (step_change h).acts.2
  rw [deed] at acts
  generalize out.filterMap Output.outbox? = said at acts ⊢
  cases acts with
  | acts was taken now =>
    exact ⟨_, Outbox.step_change taken, now, rfl, fun o has => Option.some_inj.1 (was.symm.trans has)⟩
  | begins _ new _ _ taken now =>
    refine ⟨_, Outbox.step_change taken, now, rfl, fun o has => ?_⟩
    rw [new] at has
    cases has

theorem of_heard {β : Type} {f : Outbox.Output → Option β} {x : Place} {b : β}
    (h : step clock p a = some (p', out)) (mem : (x, b) ∈ heard f [⟨clock, p, a, out⟩]) :
    ∃ u, deed? ⟨clock, p, a, out⟩ = some (x, u) ∧ b ∈ u.outputs.filterMap f := by
  obtain ⟨⟨y, said⟩, spoke, eq⟩ := List.mem_filterMap.1 mem
  obtain ⟨b', picks, eq⟩ := Option.map_eq_some_iff.1 eq
  obtain ⟨rfl, rfl⟩ := Prod.mk.inj eq
  rw [spoken, said_cons, said_nil, List.append_nil] at spoke
  cases deed : deed? ⟨clock, p, a, out⟩ with
  | none =>
    rw [(acts_of_idle h deed).2] at spoke
    cases spoke
  | some d =>
    obtain ⟨x, u⟩ := d
    obtain ⟨o', -, -, tells, -⟩ := acts_of_deed h deed
    rw [tells] at spoke
    obtain ⟨said', mem', eq⟩ := List.mem_map.1 spoke
    obtain ⟨rfl, rfl⟩ := Prod.mk.inj eq
    exact ⟨u, rfl, List.mem_filterMap.2 ⟨said', mem', picks⟩⟩

theorem of_delivered {x : Place} {n : Notice} {t : Turn} (mem : (x, n) ∈ delivered [t]) :
    ∃ u, deed? t = some (x, u) ∧ u.before.delivers? u.action = some n := by
  obtain ⟨⟨y, u⟩, deed, eq⟩ := List.mem_filterMap.1 mem
  obtain ⟨n', delivers, eq⟩ := Option.map_eq_some_iff.1 eq
  obtain ⟨rfl, rfl⟩ := Prod.mk.inj eq
  rw [deeds_single, Option.mem_toList] at deed
  exact ⟨u, deed, delivers⟩

theorem outboxAt_of_step {x : Place} {o : Outbox} (h : step clock p a = some (p', out))
    (has : p.outboxAt? x = some o) : ∃ o', p'.outboxAt? x = some o' ∧ (o' = o ∨
      ∃ u, deed? ⟨clock, p, a, out⟩ = some (x, u) ∧
        Outbox.Change p.policy u.clock o u.action o' u.outputs) := by
  cases deed : deed? ⟨clock, p, a, out⟩ with
  | none => exact ⟨o, ((acts_of_idle h deed).1 x).trans has, .inl rfl⟩
  | some d =>
    obtain ⟨y, u⟩ := d
    obtain ⟨o', change, now, -, was⟩ := acts_of_deed h deed
    by_cases same : x = y
    · subst same
      exact ⟨o', by rw [now, if_pos rfl], .inr ⟨u, rfl, was o has ▸ change⟩⟩
    · exact ⟨o, by rw [now, if_neg same, has], .inl rfl⟩

theorem handle_of_step {x : Place} {o o' : Outbox} (h : step clock p a = some (p', out))
    (has : p.outboxAt? x = some o) (has' : p'.outboxAt? x = some o') : o'.handle = o.handle := by
  obtain ⟨o₁, now, rfl | ⟨u, -, change⟩⟩ := outboxAt_of_step h has
  · rw [Option.some_inj.1 (has'.symm.trans now)]
  · rw [Option.some_inj.1 (has'.symm.trans now), change.handle]

def otherSession : Handle := ⟨"s2", by decide⟩

def sampleSettings : Settings := ⟨100, 1, ⟨100, 2.0, 1000, 2⟩, ⟨2000, 5000⟩⟩

def sampleRegistry : Registry :=
  ⟨[(Outbox.sampleSession, ⟨"driver", 7000⟩), (otherSession, ⟨"driver", 7001⟩)]⟩

def samplePool : Pool where
  policy := sampleSettings.retry.policy
  pollInterval := 100
  shards := [Shard.create 0]
  registry := sampleRegistry
  shutdown := .running

theorem samplePool_started : start sampleSettings sampleRegistry true =
    .ok (samplePool, [.log (startedEvent sampleSettings)]) :=
  rfl

end SessionCourier.Pool
