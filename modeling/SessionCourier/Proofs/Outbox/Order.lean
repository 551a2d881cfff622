import SessionCourier.Proofs.Outbox.History

set_option autoImplicit false

/-!
# An outbox delivers in order, and nothing twice

However tasks take turns, what an outbox has accepted is what was delivered followed by what waits,
until it stops accepting; from then on nothing waits. Every notice that is sent is the accepted one
that comes right after those that were delivered.
-/

namespace SessionCourier.Outbox

variable {p : Policy} {clock task now : Nat} {o o' : Outbox} {a : Action} {out : List Output}
  {holder : Option (Nat × Stage)} {acc del : List Notice} {head : Notice} {ts : List Turn}

/-- How an outbox stands to what it accepted and to what was delivered, `acc` and `del`. -/
structure Ordered (acc del : List Notice) (o : Outbox) : Prop where
  whole : o.accepts = true → acc = del ++ o.queue
  empty : o.accepts = false → o.queue = []
  front : o.accepts = true → ∀ head, o.trying? = some head → o.queue.head? = some head
  next : ∀ head, o.trying? = some head → del ++ [head] <+: acc
  served : del <+: acc

theorem ordered_create (h : Handle) (addr : Address) : Ordered [] [] (create h addr) where
  whole _ := rfl
  empty _ := rfl
  front _ _ trying := by simp [create, trying?] at trying
  next _ trying := by simp [create, trying?] at trying
  served := List.prefix_rfl

namespace Ordered

theorem accepts_of_head (h : Ordered acc del o) (front : o.queue.head? = some head) :
    o.accepts = true := by
  by_contra gone
  simp [h.empty (by simpa using gone)] at front

theorem next_of_head (h : Ordered acc del o) (front : o.queue.head? = some head) :
    del ++ [head] <+: acc := by
  obtain ⟨rest, eq⟩ := List.head?_eq_some_iff.1 front
  rw [h.whole (h.accepts_of_head front), eq]
  exact ⟨rest, by simp⟩

theorem frame (h : Ordered acc del o) (queue : o'.queue = o.queue)
    (flags : o'.accepts = o.accepts)
    (trying : ∀ head, o'.trying? = some head →
      o.trying? = some head ∨ o.queue.head? = some head) : Ordered acc del o' where
  whole live := queue ▸ h.whole (flags ▸ live)
  empty gone := queue ▸ h.empty (flags ▸ gone)
  front live head hd := by
    rw [queue]
    exact (trying head hd).elim (h.front (flags ▸ live) head) id
  next head hd := (trying head hd).elim (h.next head) h.next_of_head
  served := h.served

/-- When the queue is discarded for good, the attempt that is under way stays allowed. -/
theorem discard (h : Ordered acc del o) (queue : o'.queue = []) (flags : o'.accepts = false)
    (trying : ∀ head, o'.trying? = some head → o.trying? = some head) : Ordered acc del o' where
  whole live := by simp [flags] at live
  empty _ := queue
  front live := by simp [flags] at live
  next head hd := h.next head (trying head hd)
  served := h.served

theorem accept (h : Ordered acc del o) (live : o.accepts = true) (n : Notice) :
    Ordered (acc ++ [n]) del { o with queue := o.queue ++ [n] } where
  whole _ := by simp [h.whole live]
  empty gone := by simp [accepts] at gone live; simp [live] at gone
  front _ head hd := by
    obtain ⟨rest, eq⟩ := List.head?_eq_some_iff.1 (h.front live head hd)
    simp [eq]
  next head hd := (h.next head hd).trans (List.prefix_append _ _)
  served := h.served.trans (List.prefix_append _ _)

theorem pop (h : Ordered acc del o) (trying : o.trying? = some head)
    (queue : o'.queue = o.queue.tail) (flags : o'.accepts = o.accepts) (free : o'.holder = none) :
    Ordered acc (del ++ [head]) o' where
  whole live := by
    obtain ⟨rest, eq⟩ := List.head?_eq_some_iff.1 (h.front (flags ▸ live) head trying)
    rw [queue, h.whole (flags ▸ live), eq]
    simp
  empty gone := by simp [queue, h.empty (flags ▸ gone)]
  front _ _ hd := by simp [trying?, free] at hd
  next _ hd := by simp [trying?, free] at hd
  served := h.next head trying

theorem free (h : Ordered acc del o) : Ordered acc del { o with holder := none } :=
  h.frame rfl rfl fun _ hd => by simp [trying?] at hd

theorem goes (h : Ordered acc del { o with holder := none })
    (g : o.Goes clock task now holder out) : Ordered acc del { o with holder := holder } := by
  refine h.frame rfl rfl fun head hd => .inr ?_
  cases g with
  | ended => simp [trying?] at hd
  | sends _ front | connects _ front =>
    obtain rfl := by simpa [trying?, Stage.trying?] using hd
    simp [front]

theorem enters {job : Job} (h : Ordered acc del o) (e : o.Enters clock task job o' out) :
    Ordered acc del o' := by
  cases e with
  | waits => exact h.free
  | flushes _ g => exact h.free.goes g
  | shuts => exact h
  | releases => exact h.frame rfl rfl fun _ hd => by simp [trying?, Stage.trying?] at hd

theorem fails {f : Failure} (h : Ordered acc del o)
    (e : o.Fails p clock task now head f o' out) : Ordered acc del o' := by
  cases e with
  | abandons | retries => exact h.frame rfl rfl fun _ hd => by simp [trying?] at hd
  | exhausts => exact h.discard rfl (by simp [accepts]) fun _ hd => by simp [trying?] at hd

theorem asked {job : Job} (h : Ordered acc del o) (e : o.Asked job o') : Ordered acc del o' := by
  cases e with
  | flush => exact h
  | close => exact h.discard rfl (by simp [accepts, detach]) fun _ hd => hd

theorem still (h : Ordered acc del o) : Ordered (acc ++ []) (del ++ []) o := by
  simpa using h

theorem step (h : Ordered acc del o) (c : Change p clock o a o' out) :
    Ordered (acc ++ out.filterMap Output.accepted?) (del ++ (o.delivers? a).toList) o' := by
  rw [c.accepted]
  cases c with
  | accepts live => simpa [live, delivers?] using h.accept live _
  | refuses gone => simpa [gone, delivers?] using h
  | detaches =>
    refine still (h.discard rfl ?_ fun _ hd => hd)
    simp [accepts, detach]
  | skips | repeats => exact h.still
  | queues asked =>
    refine still ?_
    exact (h.asked asked).frame rfl rfl fun _ hd => .inl hd
  | @resumes task job rest o₂ out _ _ enters =>
    have waited : Ordered acc del { o with waiting := rest } := h.frame rfl rfl fun _ hd => .inl hd
    exact (waited.enters enters).still
  | calls asked _ _ enters => exact ((h.asked asked).enters enters).still
  | @connected task now head held =>
    have trying : o.trying? = some head := by rw [trying?, held]; rfl
    refine still (h.frame rfl rfl fun _ hd => .inl ?_)
    exact trying.trans hd
  | unreached _ fails => exact (h.fails fails).still
  | @delivered task now link head since holder out held goes =>
    have trying : o.trying? = some head := by rw [trying?, held]; rfl
    have delivers : o.delivers? (.answer (.invoked (.ok ()))) = some head := by
      rw [delivers?, inFlight?, held]
      rfl
    have popped : Ordered acc (del ++ [head]) { o with
        queue := o.queue.tail, failures := 0, nextAttempt := none, holder := none } :=
      h.pop trying rfl rfl rfl
    rw [delivers, List.append_nil]
    exact popped.goes goes
  | rejected =>
    refine still (h.frame rfl rfl fun _ hd => ?_)
    simp [trying?, Stage.trying?] at hd
  | dropped _ fails => exact (h.fails fails).still
  | closes => exact h.free.still

end Ordered

theorem ordered_of_trace {h : Handle} {addr : Address} (run : Trace (step p) (create h addr) ts o) :
    Ordered (accepted ts) (delivered ts) o := by
  induction run with
  | refl => exact ordered_create h addr
  | tail _ last ih => simpa [accepted] using ih.step (step_change last)

theorem invoked_next {h : Handle} {addr : Address} {us vs : List Turn} {t : Turn} {n : Notice}
    (run : Trace (step p) (create h addr) (us ++ t :: vs) o) (sent : n ∈ invoked [t]) :
    delivered (us ++ [t]) ++ [n] <+: accepted (us ++ [t]) := by
  obtain ⟨v, first, last, -⟩ := run.middle
  have flies : v.inFlight? = some n := by
    rcases (step_change last).invoked with eq | ⟨silent, -⟩
    · simpa [invoked, eq] using sent
    · simp [invoked, silent] at sent
  exact (ordered_of_trace (first.tail last)).next n (trying_of_inFlight flies)

theorem accepted_of_invoked {h : Handle} {addr : Address} {n : Notice}
    (run : Trace (step p) (create h addr) ts o) (sent : n ∈ invoked ts) : n ∈ accepted ts := by
  obtain ⟨t, mem, said⟩ := List.mem_flatMap.1 sent
  obtain ⟨us, vs, rfl⟩ := List.append_of_mem mem
  have next := invoked_next run (by simpa [invoked] using said)
  have accepted_before := next.subset (List.mem_append_right _ (List.mem_singleton_self n))
  rw [List.append_cons, accepted, said_append]
  exact List.mem_append_left _ accepted_before

theorem refused_of_gone {n : Notice} (h : Change p clock o a o' out) (gone : o.accepts = false)
    (adds : a = .enqueue n) : out = [.refused n, .log (o.refusedEvent n)] := by
  subst adds
  cases h with
  | accepts live => simp [gone] at live
  | refuses => rfl

/-- While one flush waits for another, the second of three notices fails, and then the outbox is
detached. -/
def interrupted : List (Nat × Action) :=
  [(0, .enqueue (sampleNotice "a")), (0, .enqueue (sampleNotice "b")), (1, .call 0 (.flush 1)),
    (2, .call 1 (.flush 2)), (3, .answer (.connected (.ok ()))), (4, .enqueue (sampleNotice "c")),
    (5, .answer (.invoked (.ok ()))), (6, .answer (.invoked (.error .closed))),
    (7, .answer .released), (8, .resume), (9, .detach), (10, .enqueue (sampleNotice "d"))]

end SessionCourier.Outbox
