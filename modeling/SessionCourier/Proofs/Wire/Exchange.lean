import SessionCourier.Proofs.Wire.Requests
import SessionCourier.Proofs.Wire.Responses

set_option autoImplicit false

namespace SessionCourier.Wire

variable {σ : Type} (h : Handler σ)

namespace Handler

/-- Asks the handler about each notice once, in order. -/
def decideAll (s : σ) : List Notice → σ × List (Except Rejection Unit)
  | [] => (s, [])
  | n :: ns =>
    let later := decideAll (h.handle s n).1 ns
    (later.1, (h.handle s n).2 :: later.2)

/-- A handler that also notes what it is asked about. -/
def noting : Handler (σ × List Notice) where
  handle m n := (((h.handle m.1 n).1, m.2 ++ [n]), (h.handle m.1 n).2)

theorem decideAll_noting (s : σ) (noted ns : List Notice) :
    h.noting.decideAll (s, noted) ns =
      (((h.decideAll s ns).1, noted ++ ns), (h.decideAll s ns).2) := by
  induction ns generalizing s noted with
  | nil => simp [decideAll]
  | cons n ns ih =>
    simp only [decideAll, noting]
    rw [← noting, ih, List.append_assoc, List.singleton_append]

theorem length_decideAll (s : σ) (ns : List Notice) : (h.decideAll s ns).2.length = ns.length := by
  induction ns generalizing s with
  | nil => rfl
  | cons n ns ih => simp [decideAll, ih]

end Handler

def answers (sent : UInt64) : List (Except Rejection Unit) → List Response
  | [] => []
  | decided :: later => .ofResult (sent + 1) decided :: answers (sent + 1) later

/-- The two ends of a connection between two calls, and what is on its way back to the link. -/
structure Exchange (σ : Type) where
  link : Link
  incoming : Incoming
  memory : σ

namespace Exchange

def start (patience : Duration) (s : σ) : Exchange σ := ⟨.fresh patience, .empty, s⟩

/-- The service is sent the request of a notice and answers it, and then the link reads. -/
def call (x : Exchange σ) (n : Notice) : Exchange σ × Invoked :=
  let served := serve h x.memory (lineOf (x.link.request n).line)
  let reply := served.2.flatMap fun r => lineOf r.line
  let invoked := x.link.invoke n (x.incoming.receive reply)
  (⟨invoked.link, invoked.incoming, served.1⟩, invoked)

def calls (x : Exchange σ) : List Notice → Exchange σ × List Invoked
  | [] => (x, [])
  | n :: ns =>
    let later := calls (call h x n).1 ns
    (later.1, (call h x n).2 :: later.2)

end Exchange

theorem respond_ofNotice (s : σ) (id : UInt64) (n : Notice) :
    respond h s (Request.ofNotice id n).line =
      ((h.handle s n).1, .ofResult id (h.handle s n).2) := by
  simp only [respond, Request.ofLine_ofNotice, Request.notice_ofNotice]
  rfl

theorem serve_request (s : σ) (id : UInt64) (n : Notice) (rest : List UInt8) :
    serve h s (lineOf (Request.ofNotice id n).line ++ rest) =
      ((serve h (h.handle s n).1 rest).1,
        .ofResult id (h.handle s n).2 :: (serve h (h.handle s n).1 rest).2) := by
  rw [serve, textLines_lineOf (Request.printable_line _), respondAll, respond_ofNotice]
  rfl

theorem serve_nil (s : σ) : serve h s [] = (s, []) := rfl

namespace Link

variable {l : Link} (isOpen : l.isOpen = true) (n : Notice)

include isOpen

theorem invoke_sends (i : Incoming) :
    (l.invoke n i).link = { l with sent := l.sent + 1 } ∧
      (l.invoke n i).request = some ((l.request n).line ++ "\n") := by
  rw [invoke, if_pos isOpen]
  simp only
  split <;> exact ⟨rfl, rfl⟩

theorem invoke_reads {i rest : Incoming} {reply : List UInt8}
    (read : i.read (maxReply + 1) = (some reply, rest)) :
    (l.invoke n i).result = interpret (l.sent + 1) reply ∧ (l.invoke n i).incoming = rest := by
  rw [invoke, if_pos isOpen]
  simp only [read, and_self]

end Link

/-- The line of a response is not longer than a link reads. -/
def Response.Fits (r : Response) : Prop := (lineOf r.line).length ≤ maxReply

namespace Exchange

variable {h} {x : Exchange σ} (isOpen : x.link.isOpen = true)

theorem call_eq (x : Exchange σ) (n : Notice) :
    let reply := lineOf (Response.ofResult (x.link.sent + 1) (h.handle x.memory n).2).line
    let invoked := x.link.invoke n (x.incoming.receive reply)
    call h x n = (⟨invoked.link, invoked.incoming, (h.handle x.memory n).1⟩, invoked) := by
  have served := serve_request h x.memory (x.link.sent + 1) n []
  rw [List.append_nil, serve_nil] at served
  simp only [call, Link.request, served, List.flatMap_cons, List.flatMap_nil, List.append_nil]

include isOpen

/-- What the link sends, and what the service does, does not depend on what comes back. -/
theorem call_sends (n : Notice) :
    (call h x n).1.link = { x.link with sent := x.link.sent + 1 } ∧
      (call h x n).1.memory = (h.handle x.memory n).1 ∧
      (call h x n).2.request = some ((x.link.request n).line ++ "\n") := by
  rw [call_eq]
  obtain ⟨link, request⟩ := Link.invoke_sends isOpen n
    (x.incoming.receive (lineOf (Response.ofResult (x.link.sent + 1) (h.handle x.memory n).2).line))
  exact ⟨link, rfl, request⟩

variable (read : x.incoming = .empty)

include read

/-- A link that has read everything reads the answer to its own request. -/
theorem call_reads (n : Notice) :
    let reply := lineOf (Response.ofResult (x.link.sent + 1) (h.handle x.memory n).2).line
    (call h x n).2.result = interpret (x.link.sent + 1) (reply.take (maxReply + 1)) ∧
      (call h x n).1.incoming = ⟨reply.drop (maxReply + 1), false⟩ := by
  rw [call_eq, read]
  exact Link.invoke_reads isOpen n (read_lineOf (Response.printable_line _) (maxReply + 1))

theorem call_fits (n : Notice)
    (fits : (Response.ofResult (x.link.sent + 1) (h.handle x.memory n).2).Fits) :
    (call h x n).2.result =
        (h.handle x.memory n).2.mapError (fun r => .rejected r.code r.message) ∧
      (call h x n).1.incoming = .empty := by
  have whole := Nat.le_succ_of_le fits
  obtain ⟨result, incoming⟩ := call_reads isOpen read n
  rw [List.take_of_length_le whole, interpret_line _ _ fits, Response.verdict_ofResult] at result
  rw [List.drop_eq_nil_of_le whole] at incoming
  exact ⟨result, incoming⟩

theorem call_long (n : Notice)
    (long : ¬(Response.ofResult (x.link.sent + 1) (h.handle x.memory n).2).Fits) :
    (call h x n).2.result ≠ .ok () := by
  rw [(call_reads isOpen read n).1]
  apply interpret_long
  rw [List.length_take_of_le (Nat.lt_of_not_le long)]
  exact Nat.lt_succ_self maxReply

omit read

theorem calls_served (ns : List Notice) :
    (calls h x ns).1.memory = (h.decideAll x.memory ns).1 ∧
      serve h x.memory (((calls h x ns).2.filterMap (·.request)).flatMap bytesOf) =
        ((h.decideAll x.memory ns).1, answers x.link.sent (h.decideAll x.memory ns).2) := by
  induction ns generalizing x with
  | nil => exact ⟨rfl, rfl⟩
  | cons n ns ih =>
    obtain ⟨link, memory, request⟩ := call_sends (h := h) isOpen n
    have stillOpen : (call h x n).1.link.isOpen = true := by rw [link, isOpen]
    obtain ⟨ended, served⟩ := ih stillOpen
    rw [memory] at ended served
    rw [link] at served
    refine ⟨ended, ?_⟩
    rw [calls, List.filterMap_cons, request]
    simp only [List.flatMap_cons, ← lineOf_eq, Link.request]
    rw [serve_request, served]
    rfl

theorem calls_agree (read : x.incoming = .empty) {ns : List Notice} {k : Nat}
    {decided : Except Rejection Unit} {r : Response} {invoked : Invoked}
    (first : (h.decideAll x.memory ns).2[k]? = some decided)
    (second : (answers x.link.sent (h.decideAll x.memory ns).2)[k]? = some r)
    (third : (calls h x ns).2[k]? = some invoked)
    (fit : ∀ e ∈ (answers x.link.sent (h.decideAll x.memory ns).2).take k, e.Fits) :
    (r.Fits → invoked.result = decided.mapError fun e => .rejected e.code e.message) ∧
      (¬r.Fits → invoked.result ≠ .ok ()) := by
  induction ns generalizing x k with
  | nil => cases first
  | cons n ns ih =>
    cases k with
    | zero =>
      cases first
      cases second
      cases third
      exact ⟨fun fits => (call_fits isOpen read n fits).1, call_long isOpen read n⟩
    | succ k =>
      -- A reply that fits leaves nothing unread, so the next call begins as this one did.
      obtain ⟨link, memory, -⟩ := call_sends (h := h) isOpen n
      have stillOpen : (call h x n).1.link.isOpen = true := by rw [link, isOpen]
      have this : (Response.ofResult (x.link.sent + 1) (h.handle x.memory n).2).Fits :=
        fit _ List.mem_cons_self
      refine ih stillOpen (call_fits isOpen read n this).2 ?_ ?_ third ?_
      · rw [memory]
        exact first
      · rw [memory, link]
        exact second
      · rw [memory, link]
        exact fun e mem => fit e (List.mem_cons_of_mem _ mem)

end Exchange

theorem length_answers (sent : UInt64) (decided : List (Except Rejection Unit)) :
    (answers sent decided).length = decided.length := by
  induction decided generalizing sent with
  | nil => rfl
  | cons d decided ih => simp [answers, ih]

theorem Exchange.length_calls (x : Exchange σ) (ns : List Notice) :
    (calls h x ns).2.length = ns.length := by
  induction ns generalizing x with
  | nil => rfl
  | cons n ns ih => simp [calls, ih]

/-- Whatever the handler and the notices are, the handler decides about each notice once, in order
and as it was sent, and the service answers with its decisions in this order. As long as every
response fits, the result of a call is the decision about its notice, a rejection with its code and
message; the first response that does not fit is not taken for a success. -/
theorem ends_agree (h : Handler σ) (s : σ) (patience : Duration) (ns : List Notice) :
    let decided := h.decideAll s ns
    let responses := answers 0 decided.2
    let ended := Exchange.calls h (.start patience s) ns
    ended.1.memory = decided.1 ∧
      (Exchange.calls h.noting (.start patience (s, [])) ns).1.memory.2 = ns ∧
      serve h s ((ended.2.filterMap (·.request)).flatMap bytesOf) = (decided.1, responses) ∧
      ∀ k < ns.length, ∃ d r i,
        decided.2[k]? = some d ∧ responses[k]? = some r ∧ ended.2[k]? = some i ∧
          ((∀ earlier ∈ responses.take k, earlier.Fits) →
            (r.Fits → i.result = d.mapError fun e => .rejected e.code e.message) ∧
              (¬r.Fits → i.result ≠ .ok ())) := by
  intro decided responses ended
  obtain ⟨memory, served⟩ := Exchange.calls_served (h := h) (x := .start patience s) rfl ns
  obtain ⟨noted, -⟩ := Exchange.calls_served (h := h.noting) (x := .start patience (s, [])) rfl ns
  refine ⟨memory, ?_, served, ?_⟩
  · rw [noted]
    exact congrArg (fun d => d.1.2) (h.decideAll_noting s [] ns)
  · intro k within
    have first : k < decided.2.length := (h.length_decideAll s ns).symm ▸ within
    have second : k < responses.length := (length_answers 0 decided.2).symm ▸ first
    have third : k < ended.2.length := (Exchange.length_calls h _ ns).symm ▸ within
    refine ⟨_, _, _, List.getElem?_eq_getElem first, List.getElem?_eq_getElem second,
      List.getElem?_eq_getElem third, ?_⟩
    exact Exchange.calls_agree rfl rfl (List.getElem?_eq_getElem first)
      (List.getElem?_eq_getElem second) (List.getElem?_eq_getElem third)

end SessionCourier.Wire
