import SessionCourier.Proofs.Pool.Homes
import SessionCourier.Proofs.Pool.Reports
import SessionCourier.Proofs.Shard.Wake

set_option autoImplicit false

namespace SessionCourier

namespace Outbox

variable {p : Policy} {h : Handle} {addr : Address} {us vs : List Turn} {o : Outbox}

def Action.offered? : Action → Option Notice
  | .enqueue n => some n
  | _ => none

def offered (us : List Turn) : List Notice := us.filterMap (·.action.offered?)

@[simp] theorem offered_append : offered (us ++ vs) = offered us ++ offered vs :=
  List.filterMap_append

theorem accepted_offered (run : Trace (step p) (create h addr) us o) :
    accepted us <+: offered us ∧ (o.accepts = true → accepted us = offered us) := by
  induction run with
  | refl => exact ⟨List.prefix_refl _, fun _ => rfl⟩
  | @tail us v w clock a out before last ih =>
    obtain ⟨first, all⟩ := ih
    have change := step_change last
    rw [accepted, said_append, said_cons, said_nil, List.append_nil, offered_append, ← accepted]
    cases live : v.accepts with
    | false =>
      rw [change.unaccepted live, List.append_nil]
      refine ⟨first.trans (List.prefix_append _ _), fun again => ?_⟩
      rw [change.gone live] at again
      cases again
    | true =>
      have same : out.filterMap Output.accepted? = offered [⟨clock, v, a, out⟩] := by
        rw [change.accepted]
        cases a with
        | enqueue n => simp [live, offered, Action.offered?]
        | detach | call | resume | answer => rfl
      rw [all live, same]
      exact ⟨List.prefix_refl _, fun _ => rfl⟩

end Outbox

namespace Pool

variable {clock k : Nat} {p p' p₀ : Pool} {a : Action} {out : List Output} {ts us : List Turn}
  {x : Place} {o : Outbox} {u : Outbox.Turn} {n : Notice} {h : Handle} {addr : Address} {s : Shard}

def offered (ts : List Turn) : List (Place × Notice) :=
  (deeds ts).filterMap fun d => d.2.action.offered?.map (d.1, ·)

@[simp] theorem offered_append : offered (ts ++ us) = offered ts ++ offered us := by
  rw [offered, deeds_append, List.filterMap_append]
  rfl

theorem offered_at (ts : List Turn) (x : Place) :
    atPlace x (offered ts) = Outbox.offered (atPlace x (deeds ts)) :=
  atPlace_filterMap (fun u => u.action.offered?) (deeds ts)

theorem accepted_offered (fresh : Fresh p₀) (run : Trace step p₀ ts p) (x : Place) :
    atPlace x (accepted ts) <+: atPlace x (offered ts) ∧
      ∀ o, p.outboxAt? x = some o → o.accepts = true →
        atPlace x (accepted ts) = atPlace x (offered ts) := by
  have traced := traced_of_trace fresh run
  rw [accepted, traced.heard, offered_at]
  cases has : p.outboxAt? x with
  | none =>
    rw [traced.absent x has]
    refine ⟨List.prefix_refl _, fun o absent => ?_⟩
    cases absent
  | some o =>
    obtain ⟨addr, run'⟩ := traced.runs x o has
    obtain ⟨first, all⟩ := Outbox.accepted_offered run'
    refine ⟨first, ?_⟩
    rintro _ ⟨⟩ live
    exact all live

/-- Callers do nothing but notify. -/
def OnlyNotified (ts : List Turn) : Prop :=
  ∀ t ∈ ts, (∃ n, t.action = .notify n) ∨ ∃ k m, t.action = .move k m

theorem deleted_of_shard (kept : ∀ t ∈ ts, ∀ h, t.action ≠ .delete h) (k : Nat) :
    Shard.deleted (turnsOf k ts) = [] := by
  refine List.filterMap_eq_nil_iff.2 fun u mem => ?_
  obtain ⟨t, told, turn⟩ := List.mem_filterMap.1 mem
  simp only [shardTurnAt?, shardTurn?, Option.bind_eq_bind, Option.bind_eq_some_iff,
    Option.pure_def, Option.some.injEq, Option.ite_none_right_eq_some] at turn
  obtain ⟨-, ⟨⟨j, b⟩, errand, s, -, rfl⟩, -, rfl⟩ := turn
  rw [Shard.deletes?]
  split
  · rename_i h deletes
    obtain rfl : b = .delete h := deletes
    exact absurd (errand_of_delete errand) (kept t told h)
  · rfl

theorem attached_of_trace (fresh : Fresh p₀) (run : Trace step p₀ ts p)
    (kept : ∀ t ∈ ts, ∀ h, t.action ≠ .delete h) (running : p.cancelled = false)
    (has : p.outboxAt? x = some o) : o.detached = false := by
  obtain ⟨s, at_, has⟩ := shard_of_outboxAt has
  have early : s.stage.isFinal = false := by
    by_contra final
    rw [(ends_of_trace fresh run).final x.1 s at_ (by simpa using final)] at running
    cases running
  have shard := (shard_of_fresh fresh run at_).2
  rcases (Shard.kept_of_trace shard).rest early x.2 (Shard.outbox_lt has) with gone | ⟨h, live⟩
  · rw [deleted_of_shard kept] at gone
    cases gone
  · exact (((Shard.sound_of_trace shard).live x.2 o has h).1 live).2

theorem OnlyNotified.before (only : OnlyNotified (ts ++ us)) : OnlyNotified ts :=
  fun t mem => only t (List.mem_append_left _ mem)

theorem OnlyNotified.kept (only : OnlyNotified ts) : ∀ t ∈ ts, ∀ h, t.action ≠ .delete h := by
  intro t mem h deletes
  rcases only t mem with ⟨n, eq⟩ | ⟨k, m, eq⟩ <;> cases deletes.symm.trans eq

theorem OnlyNotified.own (only : OnlyNotified ts) : OwnOffers ts := by
  intro t mem k id n o offers
  rcases only t mem with ⟨n, eq⟩ | ⟨k, m, eq⟩ <;> cases offers.symm.trans eq

theorem registry_of_step (h : step clock p a = some (p', out))
    (kept : (∀ h addr, a ≠ .register h addr) ∧ ∀ h, a ≠ .unregister h) :
    p'.registry = p.registry := by
  have within {k : Nat} {b : Shard.Action} {out : List Output}
      (h : p.within clock k b = some (p', out)) : p'.registry = p.registry := by
    obtain ⟨s, s', said, -, -, rfl, -⟩ := within_cases h
    rfl
  cases a with
  | notify n =>
    rcases notify_cases h with ⟨-, rfl, -⟩ | ⟨addr, out₁, e, -, added, -⟩
    · rfl
    · exact within added
  | delete h' =>
    obtain ⟨out₁, log, deleted, -⟩ := delete_cases h
    exact within deleted
  | register h' addr => exact absurd rfl (kept.1 h' addr)
  | unregister h' => exact absurd rfl (kept.2 h')
  | offer => exact within h
  | shutDown =>
    have eq : p.shutDown = (p', out) := Option.some_inj.1 h
    unfold shutDown at eq
    split at eq <;> (obtain ⟨rfl, -⟩ := Prod.mk.inj eq; rfl)
  | join =>
    simp only [step] at h
    split at h
    · obtain ⟨rfl, -⟩ := Prod.mk.inj (Option.some_inj.1 h)
      rfl
    · cases h
  | move k m => exact within (move_within h).1

theorem OnlyNotified.registry (only : OnlyNotified ts) : ∀ t ∈ ts,
    (∀ h addr, t.action ≠ .register h addr) ∧ ∀ h, t.action ≠ .unregister h := by
  intro t mem
  rcases only t mem with ⟨n, eq⟩ | ⟨k, m, eq⟩ <;> rw [eq] <;> exact ⟨nofun, nofun⟩

theorem registry_of_trace (run : Trace step p₀ ts p) (kept : ∀ t ∈ ts,
    (∀ h addr, t.action ≠ .register h addr) ∧ ∀ h, t.action ≠ .unregister h) :
    p.registry = p₀.registry := by
  induction run with
  | refl => rfl
  | tail before last ih =>
    have here := registry_of_step last (kept _ (List.mem_append_right _ (List.mem_singleton_self _)))
    exact here.trans (ih fun t mem => kept t (List.mem_append_left _ mem))

theorem shutdown_of_notify (h : step clock p a = some (p', out))
    (only : (∃ n, a = .notify n) ∨ ∃ k m, a = .move k m) : p'.shutdown = p.shutdown := by
  rcases only with ⟨n, rfl⟩ | ⟨k, m, rfl⟩
  · rcases notify_cases h with ⟨-, rfl, -⟩ | ⟨addr, out₁, e, -, added, -⟩
    · rfl
    · exact within_shutdown added
  · exact within_shutdown (move_within h).1

theorem running_of_trace (fresh : Fresh p₀) (run : Trace step p₀ ts p) (only : OnlyNotified ts) :
    p.cancelled = false := by
  have same : p.shutdown = p₀.shutdown := by
    induction run with
    | refl => rfl
    | tail before last ih =>
      have here := only _ (List.mem_append_right _ (List.mem_singleton_self _))
      exact (shutdown_of_notify last here).trans (ih only.before)
  rw [cancelled, same, fresh.running]
  rfl

theorem liveId_of_running (fresh : Fresh p₀) (run : Trace step p₀ ts p) (only : OnlyNotified ts)
    (has : p.outboxAt? x = some o) : p.liveId? o.handle = some x := by
  have running := running_of_trace fresh run only
  have attached := attached_of_trace fresh run only.kept running has
  exact liveId_of_outboxAt (sound_of_trace fresh run) has attached

theorem live_of_step (fresh : Fresh p₀) (run : Trace step p₀ ts p)
    (last : step clock p a = some (p', out)) (only : OnlyNotified (ts ++ [⟨clock, p, a, out⟩]))
    (live : p.liveId? h = some x) : p'.liveId? h = some x := by
  obtain ⟨o, has, rfl, -⟩ := attached_of_liveId (sound_of_trace fresh run) live
  obtain ⟨o', now, -⟩ := outboxAt_of_step last has
  rw [← handle_of_step last has now]
  exact liveId_of_running fresh (run.tail last) only now

theorem offered_of_deed {t : Turn} (deed : deed? t = some (x, u)) :
    offered [t] = (u.action.offered?.map (x, ·)).toList := by
  rw [offered, deeds_single, deed]
  cases offers : u.action.offered? <;> simp [offers]

theorem offered_of_idle {t : Turn} (idle : deed? t = none) : offered [t] = [] := by
  rw [offered, deeds_single, idle]
  rfl

theorem offered_of_other (told : ∀ n, a ≠ .notify n) (own : ∀ k id n, a ≠ .offer k id n) :
    offered [⟨clock, p, a, out⟩] = [] := by
  cases deed : deed? ⟨clock, p, a, out⟩ with
  | none => exact offered_of_idle deed
  | some d =>
    obtain ⟨x, u⟩ := d
    rw [offered_of_deed deed]
    cases adds : u.action with
    | enqueue n =>
      obtain ⟨b, s, errand, -, deed'⟩ := of_deed deed
      rw [adds] at deed'
      rcases Shard.deed_of_enqueue deed' with ⟨addr, rfl, -⟩ | ⟨rfl, -⟩
      · exact absurd (notify_of_add errand).1 (told n)
      · exact absurd (errand_of_offer errand) (own _ _ n)
    | detach | call | resume | answer => rfl

theorem offered_of_unknown {e : UnknownSession} (unknown : p.registry.lookup n.handle = .error e) :
    offered [⟨clock, p, .notify n, out⟩] = [] := by
  refine offered_of_idle ?_
  cases late : p.cancelled <;> simp [deed?, errand?, late, unknown]

theorem offered_of_notify (sound : Sound p) (running : p.cancelled = false)
    (known : p.registry.lookup n.handle = .ok addr) (h : step clock p (.notify n) = some (p', out)) :
    ∃ x o, offered [⟨clock, p, .notify n, out⟩] = [(x, n)] ∧ p'.outboxAt? x = some o ∧
      o.handle = n.handle := by
  have errand : p.errand? (.notify n) = some (p.shardOf n.handle, .add addr n) := by
    simp [errand?, running, known]
  cases step_change h with
  | rests idle => simp [errand] at idle
  | works errand' at_ =>
    obtain ⟨rfl, rfl⟩ := Prod.mk.inj (Option.some_inj.1 (errand.symm.trans errand'))
    obtain ⟨x, u, deed, adds, -⟩ := deed_of_notify sound running known at_
    obtain ⟨o', change, now, -⟩ := acts_of_deed h deed
    have own : OwnOffers [⟨clock, p, .notify n, out⟩] := by
      intro t mem k id n o offers
      obtain rfl := List.mem_singleton.1 mem
      cases offers
    refine ⟨x, o', ?_, ?_, change.handle.trans (handle_of_enqueue sound own deed adds)⟩
    · rw [offered_of_deed deed, adds]
      rfl
    · rw [now, if_pos rfl]

/-- What somebody was told to pass on to this session. -/
def toldFor (h : Handle) (ts : List Turn) : List Notice := (notified ts).filter (·.handle = h)

theorem toldFor_append : toldFor h (ts ++ us) = toldFor h ts ++ toldFor h us := by
  rw [toldFor, notified, List.filterMap_append, List.filter_append]
  rfl

theorem ofSession_append {l l' : List (Place × Notice)} :
    ofSession h (l ++ l') = ofSession h l ++ ofSession h l' :=
  List.filter_append ..

theorem nothing_for {t : Turn} (sound : Sound t.before) (running : t.before.cancelled = false)
    (last : step t.clock t.before t.action = some (p', t.outputs))
    (only : (∃ n, t.action = .notify n ∧ n.handle ≠ h) ∨ ∃ k m, t.action = .move k m) :
    toldFor h [t] = [] ∧ ofSession h (offered [t]) = [] := by
  obtain ⟨clock, p, a, out⟩ := t
  rcases only with ⟨n, eq, other⟩ | ⟨k, m, eq⟩
  · obtain rfl : a = .notify n := eq
    refine ⟨by simp [toldFor, notified, other], ?_⟩
    cases known : p.registry.lookup n.handle with
    | error e =>
      rw [offered_of_unknown known]
      rfl
    | ok addr =>
      obtain ⟨x, o, all, -⟩ := offered_of_notify sound running known last
      rw [all]
      simp [ofSession, other]
  · obtain rfl : a = .move k m := eq
    refine ⟨rfl, ?_⟩
    rw [offered_of_other (fun n notifies => by cases notifies) fun k id n offers => by cases offers]
    rfl

theorem last_cases (only : OnlyNotified (ts ++ [⟨clock, p, a, out⟩])) (h : Handle) :
    (∃ n, a = .notify n ∧ n.handle = h) ∨
      (∃ n, a = .notify n ∧ n.handle ≠ h) ∨ ∃ k m, a = .move k m := by
  rcases only _ (List.mem_append_right _ (List.mem_singleton_self _)) with ⟨n, eq⟩ | moves
  · by_cases same : n.handle = h
    · exact .inl ⟨n, eq, same⟩
    · exact .inr (.inl ⟨n, eq, same⟩)
  · exact .inr (.inr moves)

theorem offered_unknown {e : UnknownSession} (fresh : Fresh p₀) (run : Trace step p₀ ts p)
    (only : OnlyNotified ts) (unknown : p₀.registry.lookup h = .error e) :
    ofSession h (offered ts) = [] := by
  induction run with
  | refl => rfl
  | @tail ts p p' clock a out before last ih =>
    rw [offered_append, ofSession_append, ih only.before, List.nil_append]
    rcases last_cases only h with ⟨n, rfl, rfl⟩ | other
    · rw [← registry_of_trace before only.before.registry] at unknown
      rw [offered_of_unknown unknown]
      rfl
    · have sound := sound_of_trace fresh before
      have running := running_of_trace fresh before only.before
      exact (nothing_for (t := ⟨clock, p, a, out⟩) sound running last other).2

theorem offered_known (fresh : Fresh p₀) (run : Trace step p₀ ts p) (only : OnlyNotified ts)
    (known : p₀.registry.lookup h = .ok addr) :
    ∃ x, ofSession h (offered ts) = (toldFor h ts).map (x, ·) ∧
      (toldFor h ts ≠ [] → p.liveId? h = some x) := by
  induction run with
  | refl => exact ⟨(0, 0), rfl, fun some_told => absurd rfl some_told⟩
  | @tail ts p p' clock a out before last ih =>
    obtain ⟨x, all, live⟩ := ih only.before
    have sound := sound_of_trace fresh before
    have running := running_of_trace fresh before only.before
    rw [offered_append, ofSession_append, toldFor_append, all]
    rcases last_cases only h with ⟨n, rfl, rfl⟩ | other
    · rw [← registry_of_trace before only.before.registry] at known
      obtain ⟨y, o, here, has, handle⟩ := offered_of_notify sound running known last
      have told : toldFor n.handle [⟨clock, p, .notify n, out⟩] = [n] := by
        simp [toldFor, notified]
      have now : p'.liveId? n.handle = some y :=
        handle ▸ liveId_of_running fresh (before.tail last) only has
      rw [here, told]
      refine ⟨y, ?_, fun _ => now⟩
      -- Either this is the first notice for the session, or its outbox is the one from before.
      by_cases first : toldFor n.handle ts = []
      · simp [first, ofSession]
      · have same := live_of_step fresh before last only (live first)
        obtain rfl := Option.some_inj.1 (same.symm.trans now)
        simp [ofSession]
    · obtain ⟨told, offers⟩ := nothing_for (t := ⟨clock, p, a, out⟩) sound running last other
      rw [told, offers, List.append_nil, List.append_nil]
      exact ⟨x, rfl, fun some_told => live_of_step fresh before last only (live some_told)⟩

theorem ofSession_map {l : List (Place × Notice)} (here : ∀ b ∈ ofSession h l, b.1 = x) :
    (ofSession h l).map (·.2) = (atPlace x l).filter (·.handle = h) := by
  have own : ofSession h l = ofSession h (l.filter (·.1 = x)) := by
    rw [ofSession, ofSession, List.filter_filter]
    refine List.filter_congr fun b mem => ?_
    by_cases session : b.2.handle = h
    · have place : b.1 = x := here b (List.mem_filter.2 ⟨mem, decide_eq_true session⟩)
      simp [session, place]
    · simp [session]
  rw [own, filter_place, ofSession, List.filter_map, List.map_map]
  exact List.map_id _

section
variable {due : List Notice}

/-- What is delivered for a session is a first part of what its one outbox was offered. -/
theorem delivered_due (fresh : Fresh p₀) (run : Trace step p₀ ts p)
    (offers : ofSession h (offered ts) = due.map (x, ·)) :
    (atPlace x (offered ts)).filter (·.handle = h) = due ∧
      (ofSession h (delivered ts)).map (·.2) = (atPlace x (delivered ts)).filter (·.handle = h) ∧
      (ofSession h (delivered ts)).map (·.2) <+: due := by
  have there : ∀ b ∈ ofSession h (offered ts), b.1 = x := by
    intro b mem
    rw [offers] at mem
    obtain ⟨n, -, rfl⟩ := List.mem_map.1 mem
    rfl
  have offered_eq : (atPlace x (offered ts)).filter (·.handle = h) = due := by
    rw [← ofSession_map there, offers, List.map_map]
    exact List.map_id _
  have here : ∀ b ∈ ofSession h (delivered ts), b.1 = x := by
    rintro ⟨y, n⟩ mem
    obtain ⟨mem, session⟩ := List.mem_filter.1 mem
    have taken := accepted_of_seen fresh run (List.mem_append_right _ mem)
    have told := (accepted_offered fresh run y).1.subset (mem_atPlace.2 taken)
    exact there _ (List.mem_filter.2 ⟨mem_atPlace.1 told, session⟩)
  refine ⟨offered_eq, ofSession_map here, ?_⟩
  rw [ofSession_map here, ← offered_eq]
  exact ((prefix_of_trace fresh run x).1.trans (accepted_offered fresh run x).1).filter _

theorem fit_of_exhausted (none_spent : p.exhausted h = 0) (has : p.outboxAt? x = some o)
    (own : o.handle = h) : o.exhausted = false := by
  obtain ⟨s, at_, has⟩ := shard_of_outboxAt has
  have zero := List.sum_eq_zero_iff_forall_eq_nat.1 none_spent (s.exhausted h)
    (List.mem_map_of_mem (List.mem_of_getElem? at_))
  have fit := List.countP_eq_zero.1 zero o (List.mem_of_getElem? has)
  simpa [own] using fit

theorem waiting_at (fresh : Fresh p₀) (run : Trace step p₀ ts p) (has : p.outboxAt? x = some o) :
    atPlace x (queued p) = o.queue := by
  rw [queued_at (sound_of_trace fresh run) (traced_of_trace fresh run).empty, waitingAt, has]
  rfl

theorem liveOutbox_of_liveId (live : p.liveId? h = some x) : p.liveOutbox? h = p.outboxAt? x := by
  rw [liveOutbox?, live]
  rfl

theorem delivered_all (fresh : Fresh p₀) (run : Trace step p₀ ts p)
    (offers : ofSession h (offered ts) = due.map (x, ·)) (live : due ≠ [] → p.liveId? h = some x)
    (done : ∀ o, p.liveOutbox? h = some o → o.queue = []) (unasked : ∀ status, (h, status) ∉ ended ts) :
    (ofSession h (delivered ts)).map (·.2) = due := by
  obtain ⟨offered_eq, delivered_eq, first⟩ := delivered_due fresh run offers
  by_cases some_due : due = []
  · rw [some_due] at first ⊢
    exact List.prefix_nil.1 first
  · have sound := sound_of_trace fresh run
    have traced := traced_of_trace fresh run
    obtain ⟨o, has, own, attached⟩ := attached_of_liveId sound (live some_due)
    have none_spent : p.exhausted h = 0 := by
      rw [← (tally_of_trace fresh run).1 h]
      exact List.count_eq_zero.2 (unasked _)
    have accepts : o.accepts = true := by
      simp [Outbox.accepts, attached, fit_of_exhausted none_spent has own]
    have waits : atPlace x (queued p) = [] := by
      rw [waiting_at fresh run has]
      exact done o ((liveOutbox_of_liveId (live some_due)).trans has)
    obtain ⟨addr, run'⟩ := traced.runs x o has
    have kept : atPlace x (discarded ts) = [] := by
      rw [discarded_at]
      exact (Outbox.accepted_eq run').2 accepts
    have whole := accepted_at traced sound x
    rw [kept, waits, List.append_nil, List.append_nil] at whole
    rw [delivered_eq, ← whole, (accepted_offered fresh run x).2 o has accepts, offered_eq]

end

/-- Callers do nothing but shut the pool down. -/
def OnlyEnded (us : List Turn) : Prop :=
  ∀ t ∈ us, t.action = .shutDown ∨ t.action = .join ∨ ∃ k m, t.action = .move k m

theorem offered_ended (ends : OnlyEnded us) : offered us = [] := by
  induction us with
  | nil => rfl
  | cons t us ih =>
    obtain ⟨here, later⟩ := List.forall_mem_cons.1 ends
    rw [← List.singleton_append, offered_append, ih later, List.append_nil]
    obtain ⟨clock, p, a, out⟩ := t
    refine offered_of_other (fun n notifies => ?_) fun k id n offers => ?_
    · rcases here with eq | eq | ⟨k, m, eq⟩ <;> cases notifies.symm.trans eq
    · rcases here with eq | eq | ⟨k, m, eq⟩ <;> cases offers.symm.trans eq

theorem OnlyEnded.registry (ends : OnlyEnded us) : ∀ t ∈ us,
    (∀ h addr, t.action ≠ .register h addr) ∧ ∀ h, t.action ≠ .unregister h := by
  intro t mem
  rcases ends t mem with eq | eq | ⟨k, m, eq⟩ <;> rw [eq] <;> exact ⟨nofun, nofun⟩

/-- What is `due` to a session is offered to one outbox, which is its own, in order; a first part of it
is delivered by the end, and all of it if nothing was pending when it was looked and the end of the
session is never asked for. For this it is enough to have looked at the outbox of the session alone, so
outboxes may as well be looked at one after the other. -/
structure Serves (due : List Notice) (h : Handle) (ts us : List Turn) (seen : Pool) : Prop where
  offered : ∃ x, ofSession h (offered (ts ++ us)) = due.map (x, ·) ∧
    (due ≠ [] → ∃ o, seen.outboxAt? x = some o ∧ o.handle = h)
  delivered : (ofSession h (delivered (ts ++ us))).map (·.2) <+: due
  all : seen.pending = 0 → (∀ status, (h, status) ∉ ended (ts ++ us)) →
    (ofSession h (Pool.delivered (ts ++ us))).map (·.2) = due
  alone : (∀ o, seen.liveOutbox? h = some o → o.queue = []) →
    (∀ status, (h, status) ∉ ended (ts ++ us)) →
      (ofSession h (Pool.delivered (ts ++ us))).map (·.2) = due

section
variable {due : List Notice}

theorem delivered_still (fresh : Fresh p₀) (run : Trace step p₀ ts p) (later : Trace step p us p')
    (offers : ofSession h (offered ts) = due.map (x, ·))
    (whole : ofSession h (offered (ts ++ us)) = due.map (x, ·))
    (live : due ≠ [] → p.liveId? h = some x) (done : ∀ o, p.liveOutbox? h = some o → o.queue = [])
    (unasked : ∀ status, (h, status) ∉ ended (ts ++ us)) :
    (ofSession h (delivered (ts ++ us))).map (·.2) = due := by
  have early : ∀ status, (h, status) ∉ ended ts := fun status mem =>
    unasked status (by rw [ended, said_append]; exact List.mem_append_left _ mem)
  have first := (delivered_due fresh (run.append later) whole).2.2
  rw [delivered_append, ofSession_append, List.map_append,
    delivered_all fresh run offers live done early] at first ⊢
  have rest : (ofSession h (delivered us)).map (·.2) <+: [] :=
    (List.prefix_append_right_inj due).1 (by rwa [List.append_nil])
  rw [List.prefix_nil.1 rest, List.append_nil]

theorem serves_of_offered (fresh : Fresh p₀) (run : Trace step p₀ ts p)
    (later : Trace step p us p') (ends : OnlyEnded us)
    (offers : ofSession h (offered ts) = due.map (x, ·)) (live : due ≠ [] → p.liveId? h = some x) :
    Serves due h ts us p := by
  have whole : ofSession h (offered (ts ++ us)) = due.map (x, ·) := by
    rw [offered_append, offered_ended ends, List.append_nil, offers]
  have own : due ≠ [] → ∃ o, p.outboxAt? x = some o ∧ o.handle = h := by
    intro some_due
    obtain ⟨o, has, handle, -⟩ := attached_of_liveId (sound_of_trace fresh run) (live some_due)
    exact ⟨o, has, handle⟩
  have alone := delivered_still fresh run later offers whole live
  have first := (delivered_due fresh (run.append later) whole).2.2
  refine ⟨⟨x, whole, own⟩, first, fun done => alone fun o known => ?_, alone⟩
  obtain ⟨y, -, has⟩ := Option.bind_eq_some_iff.1 known
  have nothing : queued p = [] := List.length_eq_zero_iff.1 ((pending_eq p).symm.trans done)
  rw [← waiting_at fresh run has, nothing, atPlace_nil]

end

theorem serves_known (fresh : Fresh p₀) (run : Trace step p₀ ts p) (only : OnlyNotified ts)
    (later : Trace step p us p') (ends : OnlyEnded us)
    (known : p₀.registry.lookup h = .ok addr) : Serves (toldFor h ts) h ts us p := by
  obtain ⟨x, offers, live⟩ := offered_known fresh run only known
  exact serves_of_offered fresh run later ends offers live

theorem serves_unknown {e : UnknownSession} (fresh : Fresh p₀) (run : Trace step p₀ ts p)
    (only : OnlyNotified ts) (later : Trace step p us p') (ends : OnlyEnded us)
    (unknown : p₀.registry.lookup h = .error e) : Serves [] h ts us p := by
  have nothing : ofSession h (offered ts) = ([] : List Notice).map ((0, 0), ·) :=
    offered_unknown fresh run only unknown
  exact serves_of_offered fresh run later ends nothing fun some_due => absurd rfl some_due

theorem start_gives {settings : Settings} {registry : Registry} {runtime : Bool}
    {out : List Output} (started : start settings registry runtime = .ok (p₀, out)) :
    p₀.registry = registry ∧ out = [.log (startedEvent settings)] := by
  unfold start at started
  split at started
  · cases started
  · split at started
    · cases started
    · split at started <;> cases started
      exact ⟨rfl, rfl⟩

theorem address_of_trace (fresh : Fresh p₀) (run : Trace step p₀ ts p) (kept : ∀ t ∈ ts,
    (∀ h addr, t.action ≠ .register h addr) ∧ ∀ h, t.action ≠ .unregister h)
    (has : p.outboxAt? x = some o) : p₀.registry.lookup o.handle = .ok o.address := by
  obtain ⟨vs, t, ws, q, n, rfl, -, founds, handle⟩ := founds_of_trace fresh run has
  obtain ⟨v, before, -, -⟩ := run.middle
  have same := registry_of_trace before fun t mem => kept t (List.mem_append_left _ mem)
  rw [← same, ← handle]
  exact founds.known

end Pool

end SessionCourier
