import SessionCourier.Proofs.Outbox.Detached
import SessionCourier.Proofs.Pool.Sound

set_option autoImplicit false

namespace SessionCourier.Pool

variable {clock : Nat} {p p' : Pool} {a : Action} {out : List Output} {ts : List Turn} {t : Turn}
  {x : Place} {o o' : Outbox} {u : Outbox.Turn} {n : Notice}

section
variable {α : Type} {key : α → Nat} {l l' : List α}

theorem filter_of_lt {y : α} {k : Nat} (sorted : (y :: l).Pairwise (key · ≤ key ·))
    (lt : k < key y) : (y :: l).filter (key · = k) = [] := by
  have front := (List.pairwise_cons.1 sorted).1
  rw [List.filter_eq_nil_iff]
  intro z mem same
  have same := of_decide_eq_true same
  rcases List.mem_cons.1 mem with rfl | mem
  · omega
  · have := front z mem
    omega

/-- Of two lists that are ordered by a key, one is part of the other if it is for every key. -/
theorem sublist_of_keys (sorted : l.Pairwise (key · ≤ key ·)) (sorted' : l'.Pairwise (key · ≤ key ·))
    (part : ∀ k, (l.filter (key · = k)).Sublist (l'.filter (key · = k))) : l.Sublist l' := by
  induction l' generalizing l with
  | nil =>
    cases l with
    | nil => exact .slnil
    | cons x rest => simpa using part (key x)
  | cons y rest' ih =>
    cases l with
    | nil => exact List.nil_sublist _
    | cons x rest =>
      have sortedRest := (List.pairwise_cons.1 sorted).2
      have sortedRest' := (List.pairwise_cons.1 sorted').2
      have skip (k : Nat) (other : key y ≠ k) :
          (y :: rest').filter (key · = k) = rest'.filter (key · = k) := by simp [other]
      have own := part (key x)
      rcases Nat.lt_trichotomy (key x) (key y) with lt | eq | gt
      · rw [filter_of_lt sorted' lt] at own
        simp at own
      · rw [List.filter_cons_of_pos (by simp), List.filter_cons_of_pos (by simp [eq]),
          List.sublist_cons_iff] at own
        rcases own with own | ⟨r, same, own⟩
        · refine .cons y (ih sorted sortedRest' fun k => ?_)
          by_cases other : key y = k
          · rw [← other, ← eq, List.filter_cons_of_pos (by simp)]
            exact own
          · rw [← skip k other]
            exact part k
        · obtain ⟨rfl, rfl⟩ := List.cons.inj same
          refine .cons_cons x (ih sortedRest sortedRest' fun k => ?_)
          by_cases other : key x = k
          · exact other ▸ own
          · have := part k
            rwa [skip k other, List.filter_cons_of_neg (by simp [other])] at this
      · refine .cons y (ih sorted sortedRest' fun k => ?_)
        by_cases other : key y = k
        · rw [filter_of_lt sorted (other ▸ gt)]
          exact List.nil_sublist _
        · rw [← skip k other]
          exact part k

end

/-- A notice that is put straight into an outbox is for its session. -/
def OwnOffers (ts : List Turn) : Prop :=
  ∀ t ∈ ts, ∀ k id n o, t.action = .offer k id n → t.before.outboxAt? (k, id) = some o →
    o.handle = n.handle

theorem OwnOffers.before {us : List Turn} (own : OwnOffers (ts ++ us)) : OwnOffers ts :=
  fun t mem => own t (List.mem_append_left _ mem)

theorem OwnOffers.after {us : List Turn} (own : OwnOffers (ts ++ us)) : OwnOffers us :=
  fun t mem => own t (List.mem_append_right _ mem)

theorem handle_of_enqueue (sound : Sound p) (own : OwnOffers [⟨clock, p, a, out⟩])
    (deed : deed? ⟨clock, p, a, out⟩ = some (x, u)) (adds : u.action = .enqueue n) :
    u.before.handle = n.handle := by
  obtain ⟨b, s, errand, at_, deed'⟩ := of_deed deed
  rw [adds] at deed'
  rcases Shard.deed_of_enqueue deed' with ⟨addr, rfl, ⟨known, has⟩ | fresh⟩ | ⟨rfl, has⟩
  · exact (((sound.shards _ s at_).live _ _ has _).1 (Shard.mem_of_liveId known)).1.symm
  · rw [fresh]
    rfl
  · refine own _ (List.mem_singleton_self _) x.1 x.2 n _ (errand_of_offer errand) ?_
    exact (outboxAt_of_shard at_).trans has

theorem of_accepted (sound : Sound p) (own : OwnOffers [⟨clock, p, a, out⟩])
    (h : step clock p a = some (p', out)) (mem : (x, n) ∈ accepted [⟨clock, p, a, out⟩]) :
    ∃ u o', deed? ⟨clock, p, a, out⟩ = some (x, u) ∧ u.before.handle = n.handle ∧
      u.before.detached = false ∧ p'.outboxAt? x = some o' ∧ o'.handle = n.handle := by
  obtain ⟨u, deed, mem⟩ := of_heard h mem
  obtain ⟨o', change, now, -⟩ := acts_of_deed h deed
  obtain ⟨adds, live⟩ := change.of_accepted mem
  have handle := handle_of_enqueue sound own deed adds
  refine ⟨u, o', deed, handle, Outbox.attached_of_accepts live, ?_, change.handle.trans handle⟩
  rw [now, if_pos rfl]

theorem owned_of_trace {p₀ : Pool} (fresh : Fresh p₀) (run : Trace step p₀ ts p)
    (own : OwnOffers ts) :
    ∀ x n, (x, n) ∈ accepted ts → ∃ o, p.outboxAt? x = some o ∧ o.handle = n.handle := by
  induction run with
  | refl => intro x n mem; cases mem
  | @tail ts p p' clock a out before last ih =>
    intro x n mem
    rw [accepted, heard_append, List.mem_append] at mem
    rcases mem with old | new
    · obtain ⟨o, has, handle⟩ := ih own.before x n old
      obtain ⟨o', has', -⟩ := outboxAt_of_step last has
      exact ⟨o', has', (handle_of_step last has has').trans handle⟩
    · have sound := sound_of_trace fresh before
      obtain ⟨u, o', -, -, -, has, handle⟩ := of_accepted sound own.after last new
      exact ⟨o', has, handle⟩

/-- Once an outbox has sent or delivered something, the older ones of its session try nothing. -/
def Passed (ts : List Turn) (p : Pool) : Prop :=
  ∀ k i j n o o', ((k, j), n) ∈ invoked ts ++ delivered ts → i < j →
    p.outboxAt? (k, i) = some o → p.outboxAt? (k, j) = some o' → o.handle = o'.handle →
    o.trying? = none

theorem idle_of_step (h : step clock p a = some (p', out)) (has : p.outboxAt? x = some o)
    (gone : o.detached = true) (idle : o.trying? = none) (now : p'.outboxAt? x = some o') :
    o'.trying? = none := by
  obtain ⟨o₁, now', rfl | ⟨u, -, change⟩⟩ := outboxAt_of_step h has
  · rw [Option.some_inj.1 (now.symm.trans now'), idle]
  · rw [Option.some_inj.1 (now.symm.trans now')]
    exact (change.idle gone idle).2

theorem idle_of_deed (sound : Sound p) (h : step clock p a = some (p', out)) {k i j : Nat}
    (mem : ((k, j), n) ∈ invoked [⟨clock, p, a, out⟩] ++ delivered [⟨clock, p, a, out⟩])
    (other : i ≠ j) (now : p'.outboxAt? (k, i) = some o) : o.trying? = none := by
  obtain ⟨u, deed, adds, detaches⟩ : ∃ u, deed? ⟨clock, p, a, out⟩ = some ((k, j), u) ∧
      (∀ m, u.action ≠ .enqueue m) ∧ u.action ≠ .detach := by
    rcases List.mem_append.1 mem with mem | mem
    · obtain ⟨u, deed, mem⟩ := of_heard h mem
      obtain ⟨o', change, -⟩ := acts_of_deed h deed
      exact ⟨u, deed, change.called_of_invoked mem⟩
    · obtain ⟨u, deed, delivers⟩ := of_delivered mem
      have called := Outbox.called_of_delivers delivers
      exact ⟨u, deed, called.1, called.2.1⟩
  obtain ⟨o', -, becomes, -⟩ := acts_of_deed h deed
  have was : p.outboxAt? (k, i) = some o := by
    rw [becomes, if_neg (by simpa using other)] at now
    exact now
  have free := sound.free deed adds detaches other was
  rw [Outbox.trying?, free]
  rfl

theorem passed_of_trace {p₀ : Pool} (fresh : Fresh p₀) (run : Trace step p₀ ts p) : Passed ts p := by
  induction run with
  | refl => intro k i j n o o' mem; cases mem
  | @tail ts p p' clock a out before last ih =>
    intro k i j n o o' mem lt has has' same
    have sound := sound_of_trace fresh before
    rw [invoked, heard_append, delivered_append] at mem
    have mem : ((k, j), n) ∈ invoked ts ++ delivered ts ∨
        ((k, j), n) ∈ invoked [⟨clock, p, a, out⟩] ++ delivered [⟨clock, p, a, out⟩] := by
      simp only [List.mem_append] at mem ⊢
      exact or_or_or_comm.1 mem
    rcases mem with old | new
    · obtain ⟨v, wasj⟩ := (traced_of_trace fresh before).seen old
      obtain ⟨w, wasi⟩ := outboxAt_of_lt wasj lt
      have handlei := handle_of_step last wasi has
      have handlej := handle_of_step last wasj has'
      have same : w.handle = v.handle := by rw [← handlei, ← handlej, same]
      exact idle_of_step last wasi (sound.older wasi wasj lt same)
        (ih k i j n w v old lt wasi wasj same) has
    · exact idle_of_deed sound last new (Nat.ne_of_lt lt) has

theorem prefix_of_trace {p₀ : Pool} (fresh : Fresh p₀) (run : Trace step p₀ ts p) (x : Place) :
    atPlace x (delivered ts) <+: atPlace x (accepted ts) ∧
      ∀ n, (x, n) ∈ invoked ts → (x, n) ∈ accepted ts := by
  have traced := traced_of_trace fresh run
  have accepted_eq := traced.heard Outbox.Output.accepted? x
  have invoked_eq := traced.heard Outbox.Output.invoked? x
  cases has : p.outboxAt? x with
  | none =>
    have absent := traced.absent x has
    refine ⟨by simp [delivered_at, absent], fun n mem => ?_⟩
    have mem := mem_atPlace.2 mem
    rw [invoked, invoked_eq, absent] at mem
    cases mem
  | some o =>
    obtain ⟨addr, run'⟩ := traced.runs x o has
    refine ⟨?_, fun n mem => ?_⟩
    · rw [delivered_at, accepted, accepted_eq]
      exact (Outbox.ordered_of_trace run').served
    · have mem := mem_atPlace.2 mem
      rw [invoked, invoked_eq] at mem
      rw [← mem_atPlace, accepted, accepted_eq]
      exact Outbox.accepted_of_invoked run' mem

theorem accepted_of_seen {p₀ : Pool} (fresh : Fresh p₀) (run : Trace step p₀ ts p)
    (mem : (x, n) ∈ invoked ts ++ delivered ts) : (x, n) ∈ accepted ts := by
  obtain ⟨served, sent⟩ := prefix_of_trace fresh run x
  rcases List.mem_append.1 mem with mem | mem
  · exact sent n mem
  · exact mem_atPlace.1 (served.subset (mem_atPlace.2 mem))

/-- What concerns one session moves on from one outbox to the next and never back. -/
def InOrder (l : List (Place × Notice)) : Prop :=
  l.Pairwise fun a b => a.2.handle = b.2.handle → a.1.1 = b.1.1 ∧ a.1.2 ≤ b.1.2

/-- A turn keeps the order unless an older outbox, which is detached, comes after a newer one. -/
theorem inOrder_append {l new : List (Place × Notice)} (inOrder : InOrder l) (sound : Sound p)
    (h : step clock p a = some (p', out))
    (olds : ∀ y m, (y, m) ∈ l → ∃ o, p.outboxAt? y = some o ∧ o.handle = m.handle)
    (news : ∀ x n, (x, n) ∈ new → (∃ u, deed? ⟨clock, p, a, out⟩ = some (x, u)) ∧
      ∃ o, p'.outboxAt? x = some o ∧ o.handle = n.handle)
    (never : ∀ k i j n m w v, ((k, i), n) ∈ new → ((k, j), m) ∈ l → i < j →
      p.outboxAt? (k, i) = some w → p.outboxAt? (k, j) = some v → w.handle = v.handle →
      w.detached = true → False) : InOrder (l ++ new) := by
  refine List.pairwise_append.2 ⟨inOrder, ?_, ?_⟩
  · refine List.pairwise_of_forall_mem_list fun a₁ mem₁ a₂ mem₂ _ => ?_
    obtain ⟨⟨u₁, deed₁⟩, -⟩ := news a₁.1 a₁.2 mem₁
    obtain ⟨⟨u₂, deed₂⟩, -⟩ := news a₂.1 a₂.2 mem₂
    have same := (Prod.mk.inj (Option.some_inj.1 (deed₁.symm.trans deed₂))).1
    exact ⟨by rw [same], Nat.le_of_eq (by rw [same])⟩
  · rintro ⟨⟨k', j⟩, m⟩ old ⟨⟨k, i⟩, n⟩ now same
    obtain ⟨v, hasj, handlej⟩ := olds _ m old
    obtain ⟨-, o, hasi, handlei⟩ := news _ n now
    have routed := (sound.step h).routed _ o hasi
    rw [(step_change h).shardOf, handlei, ← same, ← handlej] at routed
    obtain rfl : k' = k := (sound.routed _ v hasj).trans routed.symm
    refine ⟨rfl, Nat.le_of_not_lt fun lt => ?_⟩
    obtain ⟨w, was⟩ := outboxAt_of_lt hasj lt
    have session : w.handle = v.handle := by
      rw [← handle_of_step h was hasi, handlei, handlej]
      exact same.symm
    exact never k' i j n m w v now old lt was hasj session (sound.older was hasj lt session)

section
variable {p₀ : Pool}

theorem accepted_inOrder (fresh : Fresh p₀) (run : Trace step p₀ ts p) (own : OwnOffers ts) :
    InOrder (accepted ts) := by
  induction run with
  | refl => exact .nil
  | @tail ts p p' clock a out before last ih =>
    have sound := sound_of_trace fresh before
    have kept := ih own.before
    rw [accepted, heard_append]
    refine inOrder_append kept sound last (owned_of_trace fresh before own.before) ?_ ?_
    · intro x n now
      obtain ⟨u, o, deed, -, -, has⟩ := of_accepted sound own.after last now
      exact ⟨⟨u, deed⟩, o, has⟩
    · intro k i j n m w v now _ _ was _ _ gone
      obtain ⟨u, o, deed, -, live, -⟩ := of_accepted sound own.after last now
      obtain ⟨-, -, -, -, here⟩ := acts_of_deed last deed
      rw [here w was, gone] at live
      cases live

/-- What is seen of the turns are attempts: a detached outbox makes one only if it has begun it. -/
structure Attempts (seen : List Turn → List (Place × Notice)) : Prop where
  nil : seen [] = []
  append : ∀ ts us, seen (ts ++ us) = seen ts ++ seen us
  part : ∀ ts, seen ts ⊆ invoked ts ++ delivered ts
  begun : ∀ {clock p a p' out x n}, step clock p a = some (p', out) →
    (x, n) ∈ seen [⟨clock, p, a, out⟩] → ∃ u, deed? ⟨clock, p, a, out⟩ = some (x, u) ∧
      (u.before.detached = true → u.before.trying? ≠ none)

theorem attempts_invoked : Attempts invoked where
  nil := rfl
  append _ _ := heard_append
  part _ := List.subset_append_left _ _
  begun last now := by
    obtain ⟨u, deed, sends⟩ := of_heard last now
    obtain ⟨o', change, -⟩ := acts_of_deed last deed
    refine ⟨u, deed, fun gone idle => ?_⟩
    rw [(change.idle gone idle).1] at sends
    cases sends

theorem attempts_delivered : Attempts delivered where
  nil := rfl
  append _ _ := delivered_append
  part _ := List.subset_append_right _ _
  begun _ now := by
    obtain ⟨u, deed, delivers⟩ := of_delivered now
    have tries := Outbox.trying_of_inFlight (Outbox.called_of_delivers delivers).2.2
    exact ⟨u, deed, fun _ => by simp [tries]⟩

theorem Attempts.inOrder {seen : List Turn → List (Place × Notice)} (attempts : Attempts seen)
    (fresh : Fresh p₀) (run : Trace step p₀ ts p) (own : OwnOffers ts) : InOrder (seen ts) := by
  have owned {us : List Turn} {q : Pool} (run : Trace step p₀ us q) (own : OwnOffers us)
      (x : Place) (n : Notice) (mem : (x, n) ∈ seen us) :
      ∃ o, q.outboxAt? x = some o ∧ o.handle = n.handle :=
    owned_of_trace fresh run own x n (accepted_of_seen fresh run (attempts.part us mem))
  induction run with
  | refl =>
    rw [attempts.nil]
    exact .nil
  | @tail ts p p' clock a out before last ih =>
    have sound := sound_of_trace fresh before
    have kept := ih own.before
    rw [attempts.append]
    refine inOrder_append kept sound last (owned before own.before) ?_ ?_
    · intro x n now
      obtain ⟨u, deed, -⟩ := attempts.begun last now
      refine ⟨⟨u, deed⟩, owned (before.tail last) own x n ?_⟩
      rw [attempts.append]
      exact List.mem_append_right _ now
    · intro k i j n m w v now old lt was hasj same gone
      obtain ⟨u, deed, tries⟩ := attempts.begun last now
      obtain ⟨-, -, -, -, here⟩ := acts_of_deed last deed
      rw [here w was] at tries
      have idle := passed_of_trace fresh before k i j m w v (attempts.part ts old) lt was hasj same
      exact tries gone idle

/-- A notice that is sent comes right after those that its outbox delivered. -/
theorem invoked_next {us vs : List Turn} (fresh : Fresh p₀) (run : Trace step p₀ (us ++ t :: vs) p)
    (sent : (x, n) ∈ invoked [t]) :
    atPlace x (delivered (us ++ [t])) ++ [n] <+: atPlace x (accepted (us ++ [t])) := by
  obtain ⟨v, before, last, -⟩ := run.middle
  obtain ⟨u, deed, sends⟩ := of_heard last sent
  obtain ⟨o, -, now, -⟩ := acts_of_deed last deed
  have traced := traced_of_trace fresh (before.tail last)
  obtain ⟨addr, run'⟩ := traced.runs x o (by rw [now, if_pos rfl])
  have turns : atPlace x (deeds (us ++ [t])) = atPlace x (deeds us) ++ [u] := by
    rw [deeds_append, deeds_single, deed, atPlace_append]
    simp
  rw [turns] at run'
  rw [delivered_at, accepted, traced.heard, turns]
  refine Outbox.invoked_next run' ?_
  simpa [Outbox.invoked] using sends

end

def ofSession (h : Handle) (l : List (Place × Notice)) : List (Place × Notice) :=
  l.filter (·.2.handle = h)

theorem InOrder.ofSession {l : List (Place × Notice)} (inOrder : InOrder l) (h : Handle) :
    (ofSession h l).Pairwise fun a b => a.1.1 = b.1.1 ∧ a.1.2 ≤ b.1.2 := by
  refine (List.Pairwise.filter _ inOrder).imp_of_mem ?_
  intro a b memA memB ordered
  have handleA := of_decide_eq_true (List.mem_filter.1 memA).2
  have handleB := of_decide_eq_true (List.mem_filter.1 memB).2
  exact ordered (handleA.trans handleB.symm)

theorem filter_place (l : List (Place × Notice)) :
    l.filter (·.1 = x) = (atPlace x l).map (x, ·) := by
  induction l with
  | nil => rfl
  | cons y rest ih =>
    rw [← List.singleton_append, atPlace_append, List.filter_append, ih, atPlace_single,
      List.map_append]
    by_cases same : y.1 = x
    · subst same
      simp
    · simp [same]

theorem filter_ofSession {h : Handle} {k : Nat} {l : List (Place × Notice)}
    (routed : ∀ a ∈ ofSession h l, a.1.1 = k) (id : Nat) :
    (ofSession h l).filter (·.1.2 = id) = ofSession h (l.filter (·.1 = (k, id))) := by
  rw [ofSession, ofSession, List.filter_filter, List.filter_filter]
  refine List.filter_congr fun a mem => ?_
  by_cases session : a.2.handle = h
  · have shard : a.1.1 = k := routed a (List.mem_filter.2 ⟨mem, decide_eq_true session⟩)
    simp [session, Prod.ext_iff, shard]
  · simp [session]

/-- Of a started pool, with whatever callers, workers, drivers and the manager do in any order: what
is delivered for a session is part of what was accepted for it, in the same order. Every outbox
delivers the notices that it accepted from the first one on, none left out and none twice, and sends
each time the one that comes next. Once an outbox of the session has sent something, no older one
does. -/
theorem delivers_each_session_in_order {settings : Settings} {registry : Registry} {runtime : Bool}
    {p₀ : Pool} {out₀ : List Output} (started : start settings registry runtime = .ok (p₀, out₀))
    (run : Trace step p₀ ts p) (own : OwnOffers ts) (h : Handle) :
    (ofSession h (delivered ts)).Sublist (ofSession h (accepted ts)) ∧
    (∀ x, atPlace x (delivered ts) <+: atPlace x (accepted ts)) ∧
    (∀ us t vs, ts = us ++ t :: vs → ∀ x n, (x, n) ∈ invoked [t] →
      atPlace x (delivered (us ++ [t])) ++ [n] <+: atPlace x (accepted (us ++ [t]))) ∧
    (ofSession h (invoked ts)).Pairwise fun a b => a.1.1 = b.1.1 ∧ a.1.2 ≤ b.1.2 := by
  have fresh := start_fresh started
  have sound := sound_of_trace fresh run
  have acceptedSorted := (accepted_inOrder fresh run own).ofSession h
  have deliveredSorted := (attempts_delivered.inOrder fresh run own).ofSession h
  have served x := (prefix_of_trace fresh run x).1
  have routed : ∀ a ∈ ofSession h (accepted ts), a.1.1 = p.shardOf h := by
    rintro ⟨x, n⟩ mem
    obtain ⟨mem, handle⟩ := List.mem_filter.1 mem
    obtain ⟨o, has, same⟩ := owned_of_trace fresh run own x n mem
    rw [sound.routed x o has, same, of_decide_eq_true handle]
  have routed' : ∀ a ∈ ofSession h (delivered ts), a.1.1 = p.shardOf h := by
    rintro ⟨x, n⟩ mem
    obtain ⟨mem, handle⟩ := List.mem_filter.1 mem
    have mem := accepted_of_seen fresh run (List.mem_append_right _ mem)
    exact routed (x, n) (List.mem_filter.2 ⟨mem, handle⟩)
  refine ⟨?_, served, ?_, (attempts_invoked.inOrder fresh run own).ofSession h⟩
  · refine sublist_of_keys (deliveredSorted.imp And.right) (acceptedSorted.imp And.right) fun id => ?_
    rw [filter_ofSession routed', filter_ofSession routed, filter_place, filter_place]
    exact ((served _).sublist.map _).filter _
  · intro us t vs eq x n sent
    subst eq
    exact invoked_next fresh run sent

theorem ownOffers_of_play {actions : List (Nat × Action)}
    (none : ∀ x ∈ actions, ∀ k id n, x.2 ≠ .offer k id n)
    (played : play step p actions = some (ts, p')) : OwnOffers ts := by
  intro t mem k id n o offers
  have kept := forall_of_play (P := fun a => ∀ k id n, a ≠ .offer k id n) none played t mem
  exact absurd offers (kept k id n)

/-- A session is deleted and gets a new notice while its first one is on the way. -/
def replaced : List (Nat × Action) :=
  let n (node : String) : Notice := .deadNode Outbox.sampleSession node
  [(0, .move 0 .start), (1, .notify (n "a")), (2, .move 0 .wake), (3, .move 0 (.survey [0])),
    (4, .move 0 .proceed), (5, .move 0 (.answer (.connected (.ok ())))),
    (6, .delete Outbox.sampleSession), (7, .notify (n "b")),
    (8, .move 0 (.answer (.invoked (.ok ())))), (9, .move 0 .proceed), (10, .move 0 .wake),
    (11, .move 0 .proceed), (12, .move 0 (.answer .released)),
    (13, .move 0 (.survey [1])), (14, .move 0 .proceed),
    (15, .move 0 (.answer (.connected (.ok ())))), (16, .move 0 (.answer (.invoked (.ok ()))))]

theorem delivers_each_session_in_order_replaced : ∃ ts p, Trace step samplePool ts p ∧
    accepted ts = [((0, 0), .deadNode Outbox.sampleSession "a"),
      ((0, 1), .deadNode Outbox.sampleSession "b")] ∧
    delivered ts = accepted ts ∧
    (ofSession Outbox.sampleSession (delivered ts)).Sublist
      (ofSession Outbox.sampleSession (accepted ts)) := by
  have seen : ((play step samplePool replaced).map fun r => (accepted r.1, delivered r.1)) =
      some ([((0, 0), .deadNode Outbox.sampleSession "a"),
          ((0, 1), .deadNode Outbox.sampleSession "b")],
        [((0, 0), .deadNode Outbox.sampleSession "a"),
          ((0, 1), .deadNode Outbox.sampleSession "b")]) := by
    decide +kernel
  obtain ⟨⟨ts, p⟩, played, eq⟩ := Option.map_eq_some_iff.1 seen
  obtain ⟨accepted_eq, delivered_eq⟩ := Prod.mk.inj eq
  have own : OwnOffers ts := ownOffers_of_play (by simp [replaced]) played
  have run := trace_of_play played
  exact ⟨ts, p, run, accepted_eq, delivered_eq.trans accepted_eq.symm,
    (delivers_each_session_in_order samplePool_started run own Outbox.sampleSession).1⟩

end SessionCourier.Pool
