import Mathlib.Data.List.Nodup
import SessionCourier.Proofs.Outbox.Accounts
import SessionCourier.Proofs.Pool.Order
import SessionCourier.Proofs.Pool.Shutdown

set_option autoImplicit false

/-!
# What becomes of what a pool accepts

Each notice that a pool accepted was delivered, or waits in the live outbox of its session, or was
discarded. The number of pending notices is the number of those that wait.
-/

namespace SessionCourier.Pool

variable {clock k : Nat} {p p' : Pool} {a : Action} {out : List Output} {ts us : List Turn}
  {t : Turn} {x : Place} {u : Outbox.Turn} {s : Shard} {o : Outbox} {n : Notice}

section
variable {α κ β : Type} [DecidableEq κ] {l l' : List (κ × β)} {at_ : κ}

theorem atPlace_absent (key : α → κ) (f : α → List β) {l : List α} (absent : ∀ a ∈ l, key a ≠ at_) :
    atPlace at_ (l.flatMap fun a => (f a).map (key a, ·)) = [] := by
  induction l with
  | nil => rfl
  | cons b l ih =>
    obtain ⟨other, others⟩ := List.forall_mem_cons.1 absent
    rw [List.flatMap_cons, atPlace_append, atPlace_map, if_neg other, ih others]
    rfl

theorem atPlace_once (key : α → κ) (f : α → List β) {l : List α} {a : α}
    (once : (l.map key).Nodup) (mem : a ∈ l) :
    atPlace (key a) (l.flatMap fun a => (f a).map (key a, ·)) = f a := by
  induction l with
  | nil => cases mem
  | cons b l ih =>
    rw [List.map_cons, List.nodup_cons] at once
    rw [List.flatMap_cons, atPlace_append, atPlace_map]
    rcases List.mem_cons.1 mem with rfl | mem
    · have absent : ∀ c ∈ l, key c ≠ key a := fun c mem same =>
        once.1 (same ▸ List.mem_map_of_mem mem)
      rw [if_pos rfl, atPlace_absent key f absent, List.append_nil]
    · have other : key b ≠ key a := fun same => once.1 (same ▸ List.mem_map_of_mem mem)
      rw [if_neg other, ih once.2 mem]
      rfl

theorem atPlace_zipIdx (f : α → List β) (l : List α) (k : Nat) :
    atPlace k (l.zipIdx.flatMap fun x => (f x.1).map (x.2, ·)) = (l[k]?).elim [] f := by
  cases has : l[k]? with
  | none =>
    refine atPlace_absent Prod.snd (fun y => f y.1) ?_
    rintro ⟨s, k'⟩ mem rfl
    rw [List.mem_zipIdx_iff_getElem?.1 mem] at has
    cases has
  | some s =>
    have once : (l.zipIdx.map (·.2)).Nodup := by
      rw [List.zipIdx_map_snd]
      exact List.nodup_range'
    have mem : (s, k) ∈ l.zipIdx := List.mem_zipIdx_iff_getElem?.2 has
    exact atPlace_once Prod.snd (fun y => f y.1) once mem

theorem atPlace_nested {κ' : Type} [DecidableEq κ'] (k : κ') (l : List (κ' × κ × β)) :
    atPlace (k, at_) (l.map fun x => ((x.1, x.2.1), x.2.2)) = atPlace at_ (atPlace k l) := by
  rw [atPlace, atPlace, atPlace, List.filterMap_map, List.filterMap_filterMap]
  congr 1
  funext x
  by_cases shard : x.1 = k <;> by_cases outbox : x.2.1 = at_ <;> simp [shard, outbox]

section
variable [BEq β] [LawfulBEq β] [BEq (κ × β)] [LawfulBEq (κ × β)]

theorem atPlace_erase (a : κ × β) (l : List (κ × β)) :
    atPlace at_ (l.erase a) = if a.1 = at_ then (atPlace at_ l).erase a.2 else atPlace at_ l := by
  induction l with
  | nil => simp
  | cons b l ih =>
    rw [← List.singleton_append (l := l), atPlace_append, atPlace_single]
    by_cases same : b = a
    · subst same
      rw [List.singleton_append, List.erase_cons_head]
      split <;> simp
    · rw [List.singleton_append, List.erase_cons_tail (by simpa using same),
        ← List.singleton_append, atPlace_append, ih, atPlace_single]
      by_cases here : a.1 = at_
      · by_cases there : b.1 = at_
        · have differ : b.2 ≠ a.2 := fun eq => same (Prod.ext (there.trans here.symm) eq)
          simp [here, there, List.erase_cons_tail, differ]
        · simp [here, there]
      · simp [here]

theorem atPlace_diff (l l' : List (κ × β)) :
    atPlace at_ (l.diff l') = (atPlace at_ l).diff (atPlace at_ l') := by
  induction l' generalizing l with
  | nil => simp
  | cons a l' ih =>
    rw [List.diff_cons, ih, atPlace_erase, ← List.singleton_append, atPlace_append, atPlace_single]
    split
    · rw [List.singleton_append, List.diff_cons]
    · rfl

end

end

def waitingIn (s : Shard) (id : Nat) : List Notice := (s.outbox? id).elim [] (·.queue)

def waitingAt (p : Pool) (x : Place) : List Notice := (p.outboxAt? x).elim [] (·.queue)

def queuedIn (s : Shard) : List (Nat × Notice) :=
  s.live.flatMap fun l => (waitingIn s l.2).map (l.2, ·)

def queued (p : Pool) : List (Place × Notice) :=
  (p.shards.zipIdx.flatMap fun x => (queuedIn x.1).map (x.2, ·)).map fun x =>
    ((x.1, x.2.1), x.2.2)

theorem pending_of_shard (s : Shard) : s.pending = (queuedIn s).length := by
  rw [Shard.pending, queuedIn]
  induction s.live with
  | nil => rfl
  | cons l rest ih =>
    rw [List.foldr_cons, ih, List.flatMap_cons, List.length_append, List.length_map, waitingIn]
    cases s.outbox? l.2 <;> rfl

theorem pending_eq (p : Pool) : p.pending = (queued p).length := by
  have spread (l : List Shard) (first : Nat) : l.foldr (·.pending + ·) 0 =
      ((l.zipIdx first).flatMap fun x => (queuedIn x.1).map (x.2, ·)).length := by
    induction l generalizing first with
    | nil => rfl
    | cons s l ih =>
      rw [List.foldr_cons, ih (first + 1), List.zipIdx_cons, List.flatMap_cons, List.length_append,
        List.length_map, pending_of_shard]
  rw [pending, queued, List.length_map]
  exact spread p.shards 0

theorem mem_queued : (x, n) ∈ queued p ↔
    ∃ s o, p.shards[x.1]? = some s ∧ s.outbox? x.2 = some o ∧ n ∈ o.queue ∧
      ∃ h, (h, x.2) ∈ s.live := by
  rw [queued, List.mem_map]
  constructor
  · rintro ⟨x', mem, eq⟩
    obtain ⟨⟨s, k⟩, shard, mem⟩ := List.mem_flatMap.1 mem
    obtain ⟨y, stands, rfl⟩ := List.mem_map.1 mem
    obtain ⟨⟨h, id⟩, live, stands⟩ := List.mem_flatMap.1 stands
    obtain ⟨n', waits, rfl⟩ := List.mem_map.1 stands
    obtain ⟨rfl, rfl⟩ := Prod.mk.inj eq
    dsimp only [waitingIn] at waits
    cases has : s.outbox? id with
    | none =>
      rw [has] at waits
      cases waits
    | some o =>
      rw [has] at waits
      exact ⟨s, o, List.mem_zipIdx_iff_getElem?.1 shard, has, waits, h, live⟩
  · rintro ⟨s, o, shard, has, waits, h, live⟩
    refine ⟨(x.1, x.2, n), List.mem_flatMap.2 ⟨(s, x.1), ?_, ?_⟩, rfl⟩
    · exact List.mem_zipIdx_iff_getElem?.2 shard
    · refine List.mem_map.2 ⟨(x.2, n), List.mem_flatMap.2 ⟨(h, x.2), live, ?_⟩, rfl⟩
      refine List.mem_map.2 ⟨n, ?_, rfl⟩
      rw [waitingIn, has]
      exact waits

theorem live_once (sound : Shard.Sound s) : (s.live.map (·.2)).Nodup := by
  refine List.Nodup.map_on ?_ (List.Nodup.of_map _ sound.keys)
  rintro ⟨h, id⟩ mem ⟨h', id'⟩ mem' same
  obtain rfl : id = id' := same
  have lt := sound.valid h id mem
  have has : s.outbox? id = some s.outboxes[id] := List.getElem?_eq_getElem lt
  have own := ((sound.live id _ has h).1 mem).1
  have own' := ((sound.live id _ has h').1 mem').1
  rw [own, own']

theorem queuedIn_at (sound : Shard.Sound s)
    (empty : ∀ id o, s.outbox? id = some o → o.accepts = false → o.queue = []) (id : Nat) :
    atPlace id (queuedIn s) = waitingIn s id := by
  by_cases live : ∃ h, (h, id) ∈ s.live
  · obtain ⟨h, mem⟩ := live
    exact atPlace_once Prod.snd (fun l => waitingIn s l.2) (live_once sound) mem
  · have absent : ∀ l ∈ s.live, l.2 ≠ id := by
      rintro ⟨h, id'⟩ mem rfl
      exact live ⟨h, mem⟩
    rw [queuedIn, atPlace_absent Prod.snd (fun l => waitingIn s l.2) absent, waitingIn]
    cases has : s.outbox? id with
    | none => rfl
    | some o =>
      refine (empty id o has ?_).symm
      have gone : o.detached = true := by
        by_contra attached
        exact live ⟨_, (sound.live id o has o.handle).2 ⟨rfl, by simpa using attached⟩⟩
      simp [Outbox.accepts, gone]

theorem queued_at (sound : Sound p)
    (empty : ∀ x o, p.outboxAt? x = some o → o.accepts = false → o.queue = []) (x : Place) :
    atPlace x (queued p) = waitingAt p x := by
  obtain ⟨k, id⟩ := x
  rw [queued, atPlace_nested, atPlace_zipIdx]
  cases has : p.shards[k]? with
  | none =>
    rw [waitingAt, outboxAt?, outbox?, has]
    rfl
  | some s =>
    rw [Option.elim_some, queuedIn_at (sound.shards k s has), waitingIn, waitingAt,
      outboxAt_of_shard has]
    intro id o has'
    exact empty (k, id) o ((outboxAt_of_shard has).trans has')

def dropped (ts : List Turn) : List (Place × Notice) :=
  (deeds ts).flatMap fun x => (Outbox.drops x.2).map (x.1, ·)

def late (ts : List Turn) : List (Place × Notice) :=
  (deeds ts).filterMap fun x => (Outbox.late? x.2).map (x.1, ·)

def discarded (ts : List Turn) : List (Place × Notice) := (dropped ts).diff (late ts)

theorem discarded_at (ts : List Turn) (x : Place) :
    atPlace x (discarded ts) = Outbox.discarded (atPlace x (deeds ts)) := by
  rw [discarded, atPlace_diff, dropped, late, atPlace_flatMap, atPlace_filterMap]
  rfl

/-- Why the queue of an outbox is discarded: its session is deleted, its retries are used up, or it is
closed by the shutdown of the pool. -/
inductive Loses (t : Turn) (u : Outbox.Turn) : Prop where
  | deleted (deletes : t.action = .delete u.before.handle)
  | exhausted (told : false ∈ Outbox.endings [u])
  | shutDown {task : Nat} (closes : u.action = .call task .close) (ended : t.before.cancelled = true)

theorem errand_of_delete {h : Handle} (errand : p.errand? a = some (k, .delete h)) :
    a = .delete h := by
  cases a with
  | notify n =>
    obtain ⟨-, -, addr, eq⟩ := errand_of_notify errand
    cases eq
  | delete h' =>
    cases errand
    rfl
  | offer | move | register | unregister | shutDown | join => cases errand

theorem Traced.empty (traced : Traced ts p) (x : Place) (o : Outbox) (has : p.outboxAt? x = some o)
    (gone : o.accepts = false) : o.queue = [] := by
  obtain ⟨addr, run⟩ := traced.runs x o has
  exact (Outbox.ordered_of_trace run).empty gone

theorem loses_of_drops (sound : Sound t.before) (traced : Traced ts t.before)
    (ends : Ends ts t.before) (deed : deed? t = some (x, u)) (drops : n ∈ Outbox.drops u) :
    n ∈ u.before.queue ∧ Loses t u := by
  obtain ⟨b, s, errand, at_, deed'⟩ := of_deed deed
  have shard := sound.shards x.1 s at_
  unfold Outbox.drops at drops
  split at drops
  · rename_i detaches
    rw [detaches] at deed'
    obtain ⟨h, rfl, known, has⟩ := Shard.deed_of_detach deed'
    have own := ((shard.live _ _ has h).1 (Shard.mem_of_liveId known)).1
    exact ⟨drops, .deleted (own ▸ errand_of_delete errand)⟩
  · rename_i task closes
    have closed := deed'
    rw [closes] at closed
    obtain ⟨has, doomed | final⟩ := Shard.deed_of_close closed
    · -- A doomed outbox was detached before, and its queue discarded then.
      have gone := ((shard.doomed _ _ has).1 (List.mem_append_right _ doomed)).1
      have nothing := traced.empty x _ ((outboxAt_of_shard at_).trans has)
        (by simp [Outbox.accepts, gone])
      rw [nothing, ite_self] at drops
      cases drops
    · split at drops
      · cases drops
      · exact ⟨drops, .shutDown closes (ends.final x.1 s at_ final)⟩
  · split at drops
    · rename_i told
      exact ⟨drops, .exhausted told⟩
    · cases drops

theorem loses_of_discarded {p₀ : Pool} (fresh : Fresh p₀) (run : Trace step p₀ ts p)
    (mem : (x, n) ∈ discarded ts) :
    ∃ us t vs u, ts = us ++ t :: vs ∧ deed? t = some (x, u) ∧ n ∈ u.before.queue ∧ Loses t u := by
  obtain ⟨⟨x', u⟩, done, drops⟩ := List.mem_flatMap.1 (List.diff_subset _ _ mem)
  obtain ⟨n', loses, eq⟩ := List.mem_map.1 drops
  obtain ⟨rfl, rfl⟩ := Prod.mk.inj eq
  obtain ⟨t, mem, deed⟩ := List.mem_filterMap.1 done
  obtain ⟨us, vs, rfl⟩ := List.append_of_mem mem
  obtain ⟨v, before, -, -⟩ := run.middle
  have sound := sound_of_trace fresh before
  have traced := traced_of_trace fresh before
  have ends := ends_of_trace fresh before
  exact ⟨us, t, vs, u, rfl, deed, loses_of_drops sound traced ends deed loses⟩

theorem accepted_at (traced : Traced ts p) (sound : Sound p) (x : Place) :
    atPlace x (accepted ts) =
      atPlace x (delivered ts) ++ atPlace x (queued p) ++ atPlace x (discarded ts) := by
  rw [accepted, traced.heard, delivered_at, queued_at sound traced.empty, discarded_at]
  cases has : p.outboxAt? x with
  | none =>
    rw [traced.absent x has, waitingAt, has]
    rfl
  | some o =>
    obtain ⟨addr, run⟩ := traced.runs x o has
    rw [waitingAt, has]
    exact (Outbox.accepted_eq run).1

theorem live_of_queued {p₀ : Pool} (fresh : Fresh p₀) (run : Trace step p₀ ts p)
    (mem : (x, n) ∈ queued p) : ∃ o, p.outboxAt? x = some o ∧ p.liveId? o.handle = some x ∧
      (OwnOffers ts → o.handle = n.handle) := by
  have sound := sound_of_trace fresh run
  obtain ⟨s, o, at_, has, waits, h, live⟩ := mem_queued.1 mem
  have here : p.outboxAt? x = some o := (outboxAt_of_shard at_).trans has
  have attached := (((sound.shards _ s at_).live _ o has h).1 live).2
  refine ⟨o, here, liveId_of_attached sound at_ has attached, fun own => ?_⟩
  have was_accepted : (x, n) ∈ accepted ts := by
    rw [← mem_atPlace, accepted_at (traced_of_trace fresh run) sound]
    exact List.mem_append_left _ (List.mem_append_right _ (mem_atPlace.2 mem))
  obtain ⟨o', has', handle⟩ := owned_of_trace fresh run own x n was_accepted
  obtain rfl := Option.some_inj.1 (here.symm.trans has')
  exact handle

theorem queued_of_inFlight (sound : Sound p) (traced : Traced ts p) (has : p.outboxAt? x = some o)
    (live : o.accepts = true) (flies : o.inFlight? = some n) : (x, n) ∈ queued p := by
  obtain ⟨addr, run⟩ := traced.runs x o has
  have front := (Outbox.ordered_of_trace run).front live n (Outbox.trying_of_inFlight flies)
  rw [← mem_atPlace, queued_at sound traced.empty, waitingAt, has]
  exact List.mem_of_head? front

def liveOutbox? (p : Pool) (h : Handle) : Option Outbox := p.liveId? h >>= p.outboxAt?

/-- The pool runs, the session of the notice is known, and its outbox accepts, if there is one. -/
def takes (p : Pool) (n : Notice) : Bool :=
  !p.cancelled && (p.registry.lookup n.handle).isOk && (p.liveOutbox? n.handle).all (·.accepts)

theorem dismissed_of_notify (clock : Nat)
    (vain : p.cancelled = true ∨ ∃ e, p.registry.lookup n.handle = .error e) :
    ∃ out, step clock p (.notify n) = some (p, out) := by
  by_cases late : p.cancelled = true
  · rw [step, notify, if_pos late]
    exact ⟨_, rfl⟩
  · obtain ⟨e, unknown⟩ := vain.resolve_left late
    rw [step, notify, if_neg late, unknown]
    exact ⟨_, rfl⟩

theorem add_isSome (sound : Shard.Sound s) (addr : Address) (n : Notice) :
    (s.add addr n).isSome = true := by
  cases known : s.liveId? n.handle with
  | none => simp [Shard.add, known, Shard.offer, Shard.create?, Shard.outbox?]
  | some id =>
    have lt := sound.valid _ id (Shard.mem_of_liveId known)
    simp [Shard.add, known, Shard.offer, Shard.outbox?, lt]

theorem start_shards {settings : Settings} {registry : Registry} {runtime : Bool} {p₀ : Pool}
    {out₀ : List Output} (started : start settings registry runtime = .ok (p₀, out₀))
    (run : Trace step p₀ ts p) : 0 < p.shards.length := by
  have first : 0 < p₀.shards.length := by
    unfold start at started
    split at started
    · cases started
    · rename_i threads
      split at started
      · cases started
      · split at started
        · cases started
        · cases started
          simpa using Nat.pos_of_ne_zero fun zero => threads (UInt64.toNat_inj.1 zero)
  refine run.invariant (P := fun q => 0 < q.shards.length) (fun last some_shards => ?_) first
  rwa [(step_change last).length]

theorem notify_isSome (sound : Sound p) (shards : 0 < p.shards.length) (clock : Nat) (n : Notice) :
    ∃ p' out, step clock p (.notify n) = some (p', out) := by
  by_cases late : p.cancelled = true
  · exact ⟨p, dismissed_of_notify clock (.inl late)⟩
  · cases known : p.registry.lookup n.handle with
    | error e => exact ⟨p, dismissed_of_notify clock (.inr ⟨e, known⟩)⟩
    | ok addr =>
      have lt : p.shardOf n.handle < p.shards.length := by
        have bound := route_lt p.shards.length n.handle
        rwa [max_eq_left shards] at bound
      have at_ := List.getElem?_eq_getElem lt
      have added := add_isSome (sound.shards _ _ at_) addr n
      obtain ⟨⟨s, said⟩, taken⟩ := Option.isSome_iff_exists.1 added
      have takes : p.within clock (p.shardOf n.handle) (.add addr n) =
          some ({ p with shards := p.shards.set (p.shardOf n.handle) s },
            said.map (.shard (p.shardOf n.handle))) := by
        simp [within, at_, Shard.step, taken]
      rw [step, notify, if_neg late, known]
      dsimp only
      rw [takes]
      exact ⟨_, _, rfl⟩

theorem heard_of_deed {β : Type} {f : Outbox.Output → Option β}
    (h : step clock p a = some (p', out)) (deed : deed? ⟨clock, p, a, out⟩ = some (x, u)) :
    heard f [⟨clock, p, a, out⟩] = (u.outputs.filterMap f).map (x, ·) := by
  obtain ⟨o', -, -, tells, -⟩ := acts_of_deed h deed
  rw [heard, spoken, said_cons, said_nil, List.append_nil, tells, List.filterMap_map,
    List.map_filterMap]
  rfl

theorem deed_of_notify {addr : Address} (sound : Sound p) (late : p.cancelled = false)
    (known : p.registry.lookup n.handle = .ok addr)
    (at_ : p.shards[p.shardOf n.handle]? = some s) :
    ∃ x u, deed? ⟨clock, p, .notify n, out⟩ = some (x, u) ∧ u.action = .enqueue n ∧
      u.before.accepts = (p.liveOutbox? n.handle).all (·.accepts) := by
  have errand : p.errand? (.notify n) = some (p.shardOf n.handle, .add addr n) := by
    simp [errand?, late, known]
  let said := (out.filterMap Output.outbox?).map (·.2)
  cases lives : s.liveId? n.handle with
  | none =>
    refine ⟨(p.shardOf n.handle, s.outboxes.length),
      ⟨clock, .create n.handle addr, .enqueue n, said⟩, ?_, rfl, ?_⟩
    · simp only [deed?, errand, at_, Shard.deed?, lives, Option.bind_eq_bind, Option.bind_some]
      rfl
    · simp only [liveOutbox?, liveId?, at_, Option.bind_eq_bind, Option.bind_some, lives]
      rfl
  | some id =>
    have lt := (sound.shards _ s at_).valid _ id (Shard.mem_of_liveId lives)
    have has : s.outbox? id = some s.outboxes[id] := List.getElem?_eq_getElem lt
    refine ⟨(p.shardOf n.handle, id), ⟨clock, s.outboxes[id], .enqueue n, said⟩, ?_, rfl, ?_⟩
    · simp only [deed?, errand, at_, Shard.deed?, lives, Shard.deedAt?, has, Option.bind_eq_bind,
        Option.bind_some, Option.map_some]
      rfl
    · simp only [liveOutbox?, liveId?, at_, Option.bind_eq_bind, Option.bind_some, lives,
        Option.map_some, outboxAt_of_shard at_, has]
      rfl

theorem accepted_of_enqueue {q : Policy} {b : Outbox.Action} {o' : Outbox}
    {said : List Outbox.Output} (change : Outbox.Change q clock o b o' said)
    (adds : b = .enqueue n) :
    said.filterMap Outbox.Output.accepted? = if o.accepts then [n] else [] := by
  subst adds
  exact change.accepted

theorem accepted_of_notify (sound : Sound p) (h : step clock p (.notify n) = some (p', out)) :
    ∃ x, accepted [⟨clock, p, .notify n, out⟩] = if p.takes n then [(x, n)] else [] := by
  have idle (none_sent : p.errand? (.notify n) = none) : accepted [⟨clock, p, .notify n, out⟩] = [] := by
    have deedless : deed? ⟨clock, p, .notify n, out⟩ = none := by simp [deed?, none_sent]
    rw [accepted, heard, spoken, said_cons, said_nil, List.append_nil, (acts_of_idle h deedless).2]
    rfl
  cases late : p.cancelled with
  | true =>
    refine ⟨(0, 0), ?_⟩
    rw [idle (by simp [errand?, late]), takes, late]
    rfl
  | false =>
    cases known : p.registry.lookup n.handle with
    | error e =>
      refine ⟨(0, 0), ?_⟩
      rw [idle (by simp [errand?, late, known]), takes, late, known]
      rfl
    | ok addr =>
      have errand : p.errand? (.notify n) = some (p.shardOf n.handle, .add addr n) := by
        simp [errand?, late, known]
      cases step_change h with
      | rests none_sent => simp [errand] at none_sent
      | works errand' at_ =>
        obtain ⟨rfl, rfl⟩ := Prod.mk.inj (Option.some_inj.1 (errand.symm.trans errand'))
        obtain ⟨x, u, deed, adds, accepts⟩ := deed_of_notify sound late known at_
        obtain ⟨o', change, -⟩ := acts_of_deed h deed
        refine ⟨x, ?_⟩
        rw [accepted, heard_of_deed h deed, accepted_of_enqueue change adds, takes, late, known,
          ← accepts]
        cases u.before.accepts <;> rfl

/-- Of a started pool, with whatever callers, workers, drivers and the manager do in any order: what
each outbox accepted is what it delivered, then what waits in it, then what was discarded. What is
pending is what waits, and this stands in the live outbox of its session, what is on its way included.
What was discarded waited in its outbox when its session was deleted, its retries were used up or the
pool closed it for its shutdown. A notice is accepted if and only if the pool runs, its session is known and no
outbox of it has stopped accepting; if the pool does not run or the session is not known, nothing
changes. -/
theorem accounts_for_each_notice {settings : Settings} {registry : Registry} {runtime : Bool}
    {p₀ : Pool} {out₀ : List Output} (started : start settings registry runtime = .ok (p₀, out₀))
    (run : Trace step p₀ ts p) :
    (∀ x, atPlace x (accepted ts) =
      atPlace x (delivered ts) ++ atPlace x (queued p) ++ atPlace x (discarded ts)) ∧
    p.pending = (queued p).length ∧
    (∀ x n, (x, n) ∈ queued p → ∃ o, p.outboxAt? x = some o ∧ p.liveId? o.handle = some x ∧
      (OwnOffers ts → o.handle = n.handle)) ∧
    (∀ x o n, p.outboxAt? x = some o → o.accepts = true → o.inFlight? = some n →
      (x, n) ∈ queued p) ∧
    (∀ x n, (x, n) ∈ discarded ts → ∃ us t vs u, ts = us ++ t :: vs ∧ deed? t = some (x, u) ∧
      n ∈ u.before.queue ∧ Loses t u) ∧
    ∀ clock n,
      (∃ p' out x, step clock p (.notify n) = some (p', out) ∧
        accepted [⟨clock, p, .notify n, out⟩] = if p.takes n then [(x, n)] else []) ∧
      ((p.cancelled = true ∨ ∃ e, p.registry.lookup n.handle = .error e) →
        ∃ out, step clock p (.notify n) = some (p, out)) := by
  have fresh := start_fresh started
  have sound := sound_of_trace fresh run
  have traced := traced_of_trace fresh run
  refine ⟨accepted_at traced sound, pending_eq p, fun x n => live_of_queued fresh run, ?_, ?_, ?_⟩
  · intro x o n has live flies
    exact queued_of_inFlight sound traced has live flies
  · intro x n mem
    exact loses_of_discarded fresh run mem
  · intro clock n
    obtain ⟨p', out, taken⟩ := notify_isSome sound (start_shards started run) clock n
    obtain ⟨x, accepts⟩ := accepted_of_notify sound taken
    exact ⟨⟨p', out, x, taken, accepts⟩, dismissed_of_notify clock⟩

/-- Of four notices the first is delivered, two wait, and one is discarded with its session. -/
def parted : List (Nat × Action) :=
  let n (h : Handle) (node : String) : Notice := .deadNode h node
  [(0, .move 0 .start), (1, .notify (n Outbox.sampleSession "a")), (2, .notify (n otherSession "b")),
    (3, .move 0 .wake), (4, .move 0 (.survey [0, 1])), (5, .move 0 .proceed),
    (6, .move 0 (.answer (.connected (.ok ())))), (7, .move 0 (.answer (.invoked (.ok ())))),
    (8, .notify (n otherSession "c")), (9, .notify (n Outbox.sampleSession "d")),
    (10, .move 0 .proceed), (11, .delete Outbox.sampleSession),
    (12, .move 0 (.answer (.connected (.ok ()))))]

theorem accounts_for_each_notice_parted : ∃ ts p, Trace step samplePool ts p ∧
    delivered ts = [((0, 0), .deadNode Outbox.sampleSession "a")] ∧
    queued p = [((0, 1), .deadNode otherSession "b"), ((0, 1), .deadNode otherSession "c")] ∧
    discarded ts = [((0, 0), .deadNode Outbox.sampleSession "d")] ∧ p.pending = 2 := by
  have seen : ((play step samplePool parted).map fun r =>
      [delivered r.1, queued r.2, discarded r.1]) =
      some [[((0, 0), .deadNode Outbox.sampleSession "a")],
        [((0, 1), .deadNode otherSession "b"), ((0, 1), .deadNode otherSession "c")],
        [((0, 0), .deadNode Outbox.sampleSession "d")]] := by
    decide +kernel
  obtain ⟨⟨ts, p⟩, played, eq⟩ := Option.map_eq_some_iff.1 seen
  obtain ⟨delivered_eq, eq⟩ := List.cons.inj eq
  obtain ⟨queued_eq, eq⟩ := List.cons.inj eq
  obtain ⟨discarded_eq, -⟩ := List.cons.inj eq
  have run := trace_of_play played
  have pending_eq := (accounts_for_each_notice samplePool_started run).2.1
  rw [show queued p = _ from queued_eq] at pending_eq
  exact ⟨ts, p, run, delivered_eq, queued_eq, discarded_eq, pending_eq⟩

end SessionCourier.Pool
