import SessionCourier.Proofs.Pool.Accounts

set_option autoImplicit false

namespace SessionCourier.Pool

variable {clock k id : Nat} {p p' p₀ : Pool} {a : Action} {out : List Output} {ts : List Turn}
  {t : Turn} {x : Place} {o : Outbox} {u : Outbox.Turn} {n : Notice} {h : Handle} {addr : Address}
  {s s' : Shard}

/-- A notice makes an outbox: the pool runs and the session is known, but has none. -/
structure Founds (t : Turn) (p' : Pool) (x : Place) (n : Notice) (addr : Address) : Prop where
  notifies : t.action = .notify n
  running : t.before.cancelled = false
  known : t.before.registry.lookup n.handle = .ok addr
  unmet : t.before.liveId? n.handle = none
  /-- There has never been an outbox here. -/
  new : t.before.outboxAt? x = none
  live : p'.liveId? n.handle = some x
  made : p'.outboxAt? x = some { Outbox.create n.handle addr with queue := [n] }

theorem notify_of_add (errand : p.errand? a = some (k, .add addr n)) :
    a = .notify n ∧ p.registry.lookup n.handle = .ok addr := by
  cases a with
  | notify n' =>
    cases late : p.cancelled with
    | true => simp [errand?, late] at errand
    | false =>
      cases known : p.registry.lookup n'.handle with
      | error => simp [errand?, late, known] at errand
      | ok addr' =>
        obtain ⟨-, rfl, rfl⟩ := by simpa [errand?, late, known] using errand
        exact ⟨rfl, known⟩
  | delete | offer | move | register | unregister | shutDown | join => cases errand

theorem liveId_of_shard (has : p.shards[p.shardOf h]? = some s) :
    p.liveId? h = (s.liveId? h).map (p.shardOf h, ·) := by
  rw [liveId?, has]
  rfl

theorem liveId_of_outboxAt (sound : Sound p) (has : p.outboxAt? x = some o)
    (attached : o.detached = false) : p.liveId? o.handle = some x := by
  obtain ⟨s, at_, has⟩ := shard_of_outboxAt has
  exact liveId_of_attached sound at_ has attached

theorem made_of_change {q : Policy} {o' : Outbox} {said : List Outbox.Output}
    (change : Outbox.Change q clock (.create n.handle addr) (.enqueue n) o' said) :
    o' = { Outbox.create n.handle addr with queue := [n] } := by
  cases change with
  | accepts => rfl
  | refuses gone => cases gone

theorem founds_of_step (sound : Sound p) (h : step clock p a = some (p', out))
    (new : p.outboxAt? x = none) (has : p'.outboxAt? x = some o) :
    ∃ n addr, Founds ⟨clock, p, a, out⟩ p' x n addr := by
  cases deed : deed? ⟨clock, p, a, out⟩ with
  | none =>
    rw [(acts_of_idle h deed).1, new] at has
    cases has
  | some d =>
    obtain ⟨y, c, w, b', said⟩ := d
    obtain ⟨o', change, now, -⟩ := acts_of_deed h deed
    obtain rfl : x = y := by
      by_contra other
      rw [now, if_neg other, new] at has
      cases has
    obtain ⟨b, s, errand, at_, deed'⟩ := of_deed deed
    have absent : s.outbox? x.2 = none := (outboxAt_of_shard at_).symm.trans new
    obtain ⟨k, id⟩ := x
    dsimp only at deed' change
    cases Shard.deed_does deed' with
    | adds _ was | offers was | deletes _ was | works _ was =>
      rw [absent] at was
      cases was
    | @creates addr n unmet =>
      obtain ⟨rfl, known⟩ := notify_of_add errand
      obtain ⟨routed, running⟩ := errand_of_add errand
      have made := (now (k, s.outboxes.length)).trans (if_pos rfl)
      rw [made_of_change change] at made
      have live := liveId_of_outboxAt (sound.step h) made rfl
      refine ⟨n, addr, rfl, running, known, ?_, new, live, made⟩
      rw [liveId_of_shard (routed ▸ at_), unmet]
      rfl

theorem founds_of_trace (fresh : Fresh p₀) (run : Trace step p₀ ts p)
    (has : p.outboxAt? x = some o) :
    ∃ us t vs q n, ts = us ++ t :: vs ∧ step t.clock t.before t.action = some (q, t.outputs) ∧
      Founds t q x n o.address ∧ n.handle = o.handle := by
  induction run generalizing o with
  | refl => simp [fresh.outboxAt] at has
  | @tail ts p p' clock a out before last ih =>
    have sound := sound_of_trace fresh before
    cases was : p.outboxAt? x with
    | none =>
      obtain ⟨n, addr, founds⟩ := founds_of_step sound last was has
      obtain rfl := Option.some_inj.1 (has.symm.trans founds.made)
      exact ⟨ts, _, [], p', n, rfl, last, founds, rfl⟩
    | some o₁ =>
      obtain ⟨us, t, vs, q, n, rfl, taken, founds, handle⟩ := ih was
      have same : o.address = o₁.address := by
        obtain ⟨o', now, rfl | ⟨u, -, change⟩⟩ := outboxAt_of_step last was
        · rw [Option.some_inj.1 (has.symm.trans now)]
        · rw [Option.some_inj.1 (has.symm.trans now), change.address]
      refine ⟨us, t, vs ++ [⟨clock, p, a, out⟩], q, n, by simp, taken, same ▸ founds, ?_⟩
      rw [handle, handle_of_step last was has]

theorem connects_of_outbox (traced : Traced ts p) (mem : (x, addr) ∈ connects ts) :
    ∃ o, p.outboxAt? x = some o ∧ addr = o.address := by
  have own := mem_atPlace.2 mem
  rw [connects, traced.heard] at own
  cases has : p.outboxAt? x with
  | none =>
    rw [traced.absent x has] at own
    cases own
  | some o =>
    obtain ⟨addr', run⟩ := traced.runs x o has
    obtain ⟨same, all⟩ := Outbox.connects_of_trace run
    exact ⟨o, rfl, (all addr own).trans same.symm⟩

theorem live_of_mem (fresh : Fresh p₀) (run : Trace step p₀ ts p) (at_ : p.shards[k]? = some s)
    (live : (h, id) ∈ s.live) :
    k = p.shardOf h ∧ p.liveId? h = some (k, id) ∧ ∃ o, p.outboxAt? (k, id) = some o ∧
      o.handle = h ∧ o.detached = false ∧ (OwnOffers ts → ∀ n ∈ o.queue, n.handle = h) := by
  have sound := sound_of_trace fresh run
  have shard := sound.shards k s at_
  have lt := shard.valid h id live
  have has : s.outbox? id = some s.outboxes[id] := List.getElem?_eq_getElem lt
  have here := (outboxAt_of_shard at_).trans has
  obtain ⟨rfl, attached⟩ := (shard.live id _ has h).1 live
  refine ⟨sound.routed _ _ here, liveId_of_attached sound at_ has attached, _, here, rfl, attached,
    fun own n mem => ?_⟩
  have waits : ((k, id), n) ∈ queued p := mem_queued.2 ⟨s, _, at_, has, mem, _, live⟩
  obtain ⟨o, has', -, handle⟩ := live_of_queued fresh run waits
  obtain rfl := Option.some_inj.1 (here.symm.trans has')
  exact (handle own).symm

theorem attached_of_liveId (sound : Sound p) (live : p.liveId? h = some x) :
    ∃ o, p.outboxAt? x = some o ∧ o.handle = h ∧ o.detached = false := by
  rw [liveId?, Option.map_eq_some_iff] at live
  obtain ⟨id, known, rfl⟩ := live
  obtain ⟨s, at_, known⟩ := Option.bind_eq_some_iff.1 known
  have shard := sound.shards _ s at_
  have mem := Shard.mem_of_liveId known
  have lt := shard.valid h id mem
  have has : s.outbox? id = some s.outboxes[id] := List.getElem?_eq_getElem lt
  obtain ⟨same, attached⟩ := (shard.live id _ has h).1 mem
  exact ⟨_, (outboxAt_of_shard at_).trans has, same.symm, attached⟩

theorem Founds.takes {q : Pool} (founds : Founds t q x n addr) : t.before.takes n = true := by
  have none_live : t.before.liveOutbox? n.handle = none := by
    rw [liveOutbox?, founds.unmet]
    rfl
  rw [Pool.takes, founds.running, founds.known, none_live]
  rfl

theorem detached_of_step {o' : Outbox} (last : step clock p a = some (p', out))
    (was : p.outboxAt? x = some o) (gone : o.detached = true) (has : p'.outboxAt? x = some o') :
    o'.detached = true := by
  obtain ⟨o₁, now, rfl | ⟨u, -, change⟩⟩ := outboxAt_of_step last was
  · rw [Option.some_inj.1 (has.symm.trans now), gone]
  · rw [Option.some_inj.1 (has.symm.trans now), (change.quiet gone).detached]

theorem unmet_of_step (sound : Sound p) (last : step clock p a = some (p', out))
    (unmet : p.liveId? h = none)
    (vain : ∀ n, a = .notify n → n.handle = h → p.takes n = false) : p'.liveId? h = none := by
  cases live : p'.liveId? h with
  | none => rfl
  | some x =>
    obtain ⟨o', has', rfl, attached⟩ := attached_of_liveId (sound.step last) live
    cases was : p.outboxAt? x with
    | none =>
      obtain ⟨n, addr, founds⟩ := founds_of_step sound last was has'
      obtain rfl := Option.some_inj.1 (has'.symm.trans founds.made)
      have refused := vain n founds.notifies rfl
      rw [show p.takes n = true from founds.takes] at refused
      cases refused
    | some o =>
      have same := handle_of_step last was has'
      have attached' : o.detached = false := by
        by_contra gone
        rw [detached_of_step last was (by simpa using gone) has'] at attached
        cases attached
      rw [same, liveId_of_outboxAt sound was attached'] at unmet
      cases unmet

theorem unmet_of_trace (fresh : Fresh p₀) (before : Trace step p₀ ts p) {vs : List Turn}
    (run : Trace step p vs p') (unmet : p.liveId? h = none)
    (vain : ∀ t ∈ vs, ∀ n, t.action = .notify n → n.handle = h → t.before.takes n = false) :
    p'.liveId? h = none := by
  induction run with
  | refl => exact unmet
  | tail earlier last ih =>
    have kept := ih fun t mem => vain t (List.mem_append_left _ mem)
    have sound := sound_of_trace fresh (before.append earlier)
    exact unmet_of_step sound last kept
      (vain _ (List.mem_append_right _ (List.mem_singleton_self _)))

theorem unmet_of_delete (last : step clock p (.delete h) = some (p', out)) :
    p'.liveId? h = none := by
  cases step_change last with
  | rests idle => cases idle
  | @works k b s s' said _ errand at_ _ taken =>
    obtain ⟨rfl, rfl⟩ := Prod.mk.inj (Option.some_inj.1 errand)
    have gone : s'.liveId? h = none := by
      cases Shard.step_change taken with
      | misses unknown => exact unknown
      | deletes =>
        rw [Shard.liveId?, Shard.wakeUp_live, List.lookup_eq_none_iff]
        intro l mem
        have other := of_decide_eq_true (List.mem_filter.1 mem).2
        exact bne_iff_ne.2 (Ne.symm other)
    have lt := (List.getElem?_eq_some_iff.1 at_).1
    have same : { p with shards := p.shards.set (p.shardOf h) s' }.shardOf h = p.shardOf h :=
      (step_change last).shardOf h
    rw [liveId_of_shard (s := s') ?_, gone]
    · rfl
    · rw [same]
      exact List.getElem?_set_self lt

theorem outboxAt_of_trace (run : Trace step p ts p') (has : p.outboxAt? x = some o) :
    ∃ o', p'.outboxAt? x = some o' := by
  induction run with
  | refl => exact ⟨o, has⟩
  | tail _ last ih =>
    obtain ⟨o₁, was⟩ := ih
    obtain ⟨o', now, -⟩ := outboxAt_of_step last was
    exact ⟨o', now⟩

theorem never_of_trace (run : Trace step p₀ ts p) (new : p.outboxAt? x = none) :
    ∀ t ∈ ts, t.before.outboxAt? x = none := by
  intro t mem
  obtain ⟨us, vs, rfl⟩ := List.append_of_mem mem
  obtain ⟨v, -, last, later⟩ := run.middle
  cases was : t.before.outboxAt? x with
  | none => rfl
  | some o =>
    obtain ⟨o', now⟩ := outboxAt_of_trace ((Trace.single last).append later) was
    rw [new] at now
    cases now

theorem accepted_at_new (sound : Sound p) (last : step clock p (.notify n) = some (p', out))
    (takes : p.takes n = true) (new : p.outboxAt? x = none) (has : p'.outboxAt? x = some o) :
    accepted [⟨clock, p, .notify n, out⟩] = [(x, n)] := by
  obtain ⟨y, all⟩ := accepted_of_notify sound last
  rw [takes, if_pos rfl] at all
  have mem : (y, n) ∈ accepted [⟨clock, p, .notify n, out⟩] := by
    rw [all]
    exact List.mem_singleton_self _
  obtain ⟨u, deed, -⟩ := of_heard last mem
  obtain ⟨o', -, now, -⟩ := acts_of_deed last deed
  rw [now, new] at has
  split at has
  · rename_i same
    rw [all, same]
  · cases has

theorem founds_of_notify (sound : Sound p) (shards : 0 < p.shards.length)
    (unmet : p.liveId? n.handle = none) (takes : p.takes n = true) (clock : Nat) :
    ∃ p' out x addr, step clock p (.notify n) = some (p', out) ∧
      Founds ⟨clock, p, .notify n, out⟩ p' x n addr ∧
      accepted [⟨clock, p, .notify n, out⟩] = [(x, n)] := by
  obtain ⟨p', out, last⟩ := notify_isSome sound shards clock n
  have errand : ∃ addr, p.errand? (.notify n) = some (p.shardOf n.handle, .add addr n) := by
    cases late : p.cancelled with
    | true => simp [Pool.takes, late] at takes
    | false =>
      cases known : p.registry.lookup n.handle with
      | error e => simp [Pool.takes, known, Except.isOk, Except.toBool] at takes
      | ok addr => exact ⟨addr, by simp [errand?, late, known]⟩
  obtain ⟨addr, errand⟩ := errand
  obtain ⟨x, o, new, has⟩ : ∃ x o, p.outboxAt? x = none ∧ p'.outboxAt? x = some o := by
    cases step_change last with
    | rests idle => simp [errand] at idle
    | @works k b s s' said _ errand' at_ _ taken =>
      obtain ⟨rfl, rfl⟩ := Prod.mk.inj (Option.some_inj.1 (errand.symm.trans errand'))
      have unmet' : s.liveId? n.handle = none := by
        rw [liveId_of_shard at_] at unmet
        exact Option.map_eq_none_iff.1 unmet
      cases Shard.step_change taken with
      | adds known => simp [unmet'] at known
      | creates =>
        refine ⟨(p.shardOf n.handle, s.outboxes.length), ((Outbox.create n.handle addr).enqueue n).1,
          (outboxAt_of_shard at_).trans (List.getElem?_eq_none (Nat.le_refl _)), ?_⟩
        rw [outboxAt_set at_, if_pos rfl, Shard.outbox?, Shard.wakeUp_outboxes,
          Shard.outbox_append, if_pos rfl]
  obtain ⟨n', addr', founds⟩ := founds_of_step sound last new has
  obtain rfl := Action.notify.inj founds.notifies
  exact ⟨p', out, x, addr', last, founds, accepted_at_new sound last takes new has⟩

theorem length_of_started {settings : Settings} {registry : Registry} {runtime : Bool}
    {out₀ : List Output} (started : start settings registry runtime = .ok (p₀, out₀))
    (run : Trace step p₀ ts p) : p.shards.length = settings.threadCount.toNat := by
  have first : p₀.shards.length = settings.threadCount.toNat := by
    unfold start at started
    split at started
    · cases started
    · split at started
      · cases started
      · split at started
        · cases started
        · cases started
          simp
  refine run.invariant (P := fun q => q.shards.length = settings.threadCount.toNat) ?_ first
  intro clock u a v out last same
  rw [(step_change last).length, same]

/-- Of a started pool, with whatever callers, workers, drivers and the manager do in any order: a
session has one live outbox at most, in the shard it is routed to, which there is. The outbox is for
this session and so is all that waits in it. Every outbox was made by a notice for its session, and
the address that the registry had then is the one it asks for. A session that was deleted has no live
outbox until a notice for it is accepted, and this makes one where there was none before: it is as
new, with the address that the registry has now and with this notice. -/
theorem one_outbox_per_session {settings : Settings} {registry : Registry} {runtime : Bool}
    {out₀ : List Output} (started : start settings registry runtime = .ok (p₀, out₀))
    (run : Trace step p₀ ts p) :
    (p.shards.length = settings.threadCount.toNat ∧ ∀ h, p.shardOf h < p.shards.length) ∧
    (∀ k s, p.shards[k]? = some s → (s.live.map (·.1)).Nodup ∧
      ∀ h id, (h, id) ∈ s.live → k = p.shardOf h ∧ p.liveId? h = some (k, id) ∧
        ∃ o, p.outboxAt? (k, id) = some o ∧ o.handle = h ∧ o.detached = false ∧
          (OwnOffers ts → ∀ n ∈ o.queue, n.handle = h)) ∧
    (∀ x o, p.outboxAt? x = some o → ∃ us t vs q n, ts = us ++ t :: vs ∧
      step t.clock t.before t.action = some (q, t.outputs) ∧ Founds t q x n o.address ∧
      n.handle = o.handle) ∧
    (∀ x addr, (x, addr) ∈ connects ts → ∃ o, p.outboxAt? x = some o ∧ addr = o.address) ∧
    (∀ us t vs h, ts = us ++ t :: vs → t.action = .delete h →
      (∀ t' ∈ vs, ∀ n, t'.action = .notify n → n.handle = h → t'.before.takes n = false) →
      p.liveId? h = none ∧
      ∀ n, n.handle = h → p.takes n = true → ∀ clock, ∃ p' out x addr,
        step clock p (.notify n) = some (p', out) ∧
        Founds ⟨clock, p, .notify n, out⟩ p' x n addr ∧
        accepted [⟨clock, p, .notify n, out⟩] = [(x, n)] ∧
        ∀ t' ∈ ts, t'.before.outboxAt? x = none) := by
  have fresh := start_fresh started
  have sound := sound_of_trace fresh run
  have shards := start_shards started run
  refine ⟨⟨length_of_started started run, fun h => ?_⟩, ?_, ?_, ?_, ?_⟩
  · have bound := route_lt p.shards.length h
    rwa [max_eq_left shards] at bound
  · intro k s at_
    exact ⟨(sound.shards k s at_).keys, fun h id live => live_of_mem fresh run at_ live⟩
  · exact fun x o has => founds_of_trace fresh run has
  · exact fun x addr mem => connects_of_outbox (traced_of_trace fresh run) mem
  · rintro us t vs h rfl deletes vain
    obtain ⟨v, before, last, later⟩ := run.middle
    have unmet : v.liveId? h = none := by
      rw [deletes] at last
      exact unmet_of_delete last
    have unmet := unmet_of_trace fresh (before.append (.single last)) later unmet vain
    refine ⟨unmet, ?_⟩
    rintro n rfl takes clock
    obtain ⟨p', out, x, addr, last, founds, all⟩ := founds_of_notify sound shards unmet takes clock
    exact ⟨p', out, x, addr, last, founds, all, never_of_trace run founds.new⟩

theorem last_of_play {actions : List (Nat × Action)}
    (played : play step p (actions ++ [(clock, a)]) = some (ts, p')) :
    ∃ us t, ts = us ++ [t] ∧ t.action = a := by
  have all := actions_of_play played
  rw [List.map_append, List.map_eq_append_iff] at all
  obtain ⟨us, vs, rfl, -, last⟩ := all
  obtain ⟨t, rfl, same⟩ := List.map_eq_singleton_iff.1 last
  exact ⟨us, t, rfl, same⟩

/-- A session moves after its first notice, and is deleted while this is on its way. -/
def moved : List (Nat × Action) :=
  [(0, .move 0 .start), (1, .notify (.deadNode Outbox.sampleSession "a")),
    (2, .register Outbox.sampleSession ⟨"elsewhere", 7002⟩), (3, .move 0 .wake),
    (4, .move 0 (.survey [0])), (5, .move 0 .proceed)] ++ [(6, .delete Outbox.sampleSession)]

theorem one_outbox_per_session_moved :
    let n : Notice := .deadNode Outbox.sampleSession "b"
    ∃ ts p, Trace step samplePool ts p ∧ connects ts = [((0, 0), ⟨"driver", 7000⟩)] ∧
      p.liveId? n.handle = none ∧ ∀ clock, ∃ p' out x, step clock p (.notify n) = some (p', out) ∧
        p'.outboxAt? x = some { Outbox.create n.handle ⟨"elsewhere", 7002⟩ with queue := [n] } := by
  intro n
  have seen : ((play step samplePool moved).map fun r => (connects r.1, r.2.takes n,
      r.2.registry.address? n.handle)) =
      some ([((0, 0), ⟨"driver", 7000⟩)], true, some ⟨"elsewhere", 7002⟩) := by
    decide +kernel
  obtain ⟨⟨ts, p⟩, played, eq⟩ := Option.map_eq_some_iff.1 seen
  simp only [Prod.mk.injEq] at eq
  obtain ⟨asked, takes, registered⟩ := eq
  have run := trace_of_play played
  obtain ⟨us, t, rfl, deletes⟩ := last_of_play played
  obtain ⟨unmet, next⟩ := (one_outbox_per_session samplePool_started run).2.2.2.2 us t []
    n.handle rfl deletes nofun
  refine ⟨_, p, run, asked, unmet, fun clock => ?_⟩
  obtain ⟨p', out, x, addr, last, founds, -⟩ := next n rfl takes clock
  refine ⟨p', out, x, last, ?_⟩
  have known : p.registry.lookup n.handle = .ok addr := founds.known
  rw [Registry.lookup, registered] at known
  cases known
  exact founds.made

end SessionCourier.Pool
