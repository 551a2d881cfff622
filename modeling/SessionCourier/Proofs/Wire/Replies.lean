import SessionCourier.Proofs.Wire.Exchange

set_option autoImplicit false

/-!
# A reply answers one call

What a driver sends back is any stream of bytes, received bit by bit, before a call or while it
waits. Each call reads the next line of the stream, from where the call before it stopped reading, up
to a limit; so the calls share out the stream among them, and no byte is read twice. A call is
acknowledged only if all of its line was read and answers the number of its request. That a call does
not run out of time means that what it has read is not changed by what is received later; this is
what makes the line it reads the next line of the whole stream.
-/

namespace SessionCourier.Wire

variable {bytes more : List UInt8}

/-- Bytes up to the first newline, and it; all of the bytes if there is none. -/
def nextLine (bytes : List UInt8) : List UInt8 := (splitLines bytes).headD []

theorem nextLine_cons (b : UInt8) (bytes : List UInt8) :
    nextLine (b :: bytes) = if b = newline then [b] else b :: nextLine bytes := by
  unfold nextLine
  rw [splitLines]
  split
  · rfl
  · cases splitLines bytes <;> rfl

theorem takeLine_eq (limit : Nat) (bytes : List UInt8) :
    takeLine limit bytes =
      ((nextLine bytes).take limit, bytes.drop ((nextLine bytes).take limit).length) := by
  induction bytes generalizing limit with
  | nil => cases limit <;> rfl
  | cons b bytes ih =>
    cases limit with
    | zero => simp [takeLine]
    | succ limit =>
      rw [takeLine, nextLine_cons]
      by_cases last : b = newline
      · simp [last]
      · simp [last, ih]

theorem nextLine_starts (bytes : List UInt8) : nextLine bytes <+: bytes := by
  induction bytes with
  | nil => exact List.nil_prefix
  | cons b bytes ih =>
    rw [nextLine_cons]
    split
    · exact List.prefix_cons_inj b |>.mpr List.nil_prefix
    · exact List.prefix_cons_inj b |>.mpr ih

theorem nextLine_of_not_mem (free : newline ∉ bytes) : nextLine bytes = bytes := by
  induction bytes with
  | nil => rfl
  | cons b bytes ih =>
    obtain ⟨other, later⟩ := not_or.1 (mt List.mem_cons.2 free)
    rw [nextLine_cons, if_neg (Ne.symm other), ih later]

theorem nextLine_append_of_mem (ends : newline ∈ bytes) :
    nextLine (bytes ++ more) = nextLine bytes := by
  induction bytes with
  | nil => exact absurd ends List.not_mem_nil
  | cons b bytes ih =>
    rw [List.cons_append, nextLine_cons, nextLine_cons]
    by_cases last : b = newline
    · rw [if_pos last, if_pos last]
    · rw [if_neg last, if_neg last, ih (List.mem_of_ne_of_mem (Ne.symm last) ends)]

theorem nextLine_append_of_not_mem (free : newline ∉ bytes) :
    nextLine (bytes ++ more) = bytes ++ nextLine more := by
  induction bytes with
  | nil => rfl
  | cons b bytes ih =>
    obtain ⟨other, later⟩ := not_or.1 (mt List.mem_cons.2 free)
    rw [List.cons_append, nextLine_cons, if_neg (Ne.symm other), ih later, List.cons_append]

/-- What is read of a line is settled when its newline has come, or as much as is read at most. -/
theorem take_nextLine_append {limit : Nat}
    (settled : ((nextLine bytes).take limit).getLast? = some newline ∨
      ((nextLine bytes).take limit).length = limit) :
    (nextLine (bytes ++ more)).take limit = (nextLine bytes).take limit := by
  by_cases ends : newline ∈ bytes
  · rw [nextLine_append_of_mem ends]
  · rw [nextLine_of_not_mem ends] at settled ⊢
    rw [nextLine_append_of_not_mem ends]
    rcases settled with last | full
    · exact absurd (List.mem_of_mem_take (List.mem_of_getLast? last)) ends
    · rw [List.length_take] at full
      exact List.take_append_of_le_length (by omega)

/-- A line that acknowledges the request with this number. -/
structure Acknowledges (id : UInt64) (line : List UInt8) : Prop where
  some_left : 1 ≤ line.length
  fits : line.length ≤ maxReply
  understood : ∃ text r, textOf? line = some text ∧
    Response.ofLine (Text.trimEnd text) = .ok r ∧ r.id = some id ∧ r.success = true

theorem Response.verdict_ok_iff (r : Response) (id : UInt64) :
    r.verdict id = .ok () ↔ r.id = some id ∧ r.success = true := by
  rw [verdict]
  by_cases own : r.id = some id
  · by_cases success : r.success = true
    · simp [own, success]
    · cases reason : r.error <;> simp [own, success]
  · simp [own]

theorem eq_nil_of_textOf? (empty : textOf? bytes = some "") : bytes = [] := by
  rw [textOf?, String.fromUTF8?] at empty
  split at empty
  · have same := congrArg String.toByteArray (Option.some.inj empty)
    have none_left : bytes.toArray = #[] := congrArg ByteArray.data same
    exact congrArg Array.toList none_left
  · cases empty

theorem interpret_ok_iff (id : UInt64) (reply : List UInt8) :
    interpret id reply = .ok () ↔ Acknowledges id reply := by
  rw [interpret]
  constructor
  · intro ok
    cases text : textOf? reply with
    | none => simp [text] at ok
    | some t =>
      simp only [text] at ok
      split at ok
      · cases ok
      · rename_i not_empty
        split at ok
        · cases ok
        · rename_i fits
          cases decoded : Response.ofLine (Text.trimEnd t) with
          | error report => simp [decoded] at ok
          | ok r =>
            rw [decoded] at ok
            refine ⟨?_, Nat.le_of_not_lt fits, t, r, text, decoded, (r.verdict_ok_iff id).mp ok⟩
            refine List.length_pos_iff.mpr fun none_left => not_empty ?_
            rw [none_left] at text
            exact (Option.some.inj text).symm
  · rintro ⟨some_left, fits, t, r, text, decoded, accepted⟩
    have not_empty : t ≠ "" := by
      rintro rfl
      rw [eq_nil_of_textOf? text] at some_left
      exact absurd some_left (by decide)
    simp only [text, if_neg not_empty, if_neg (Nat.not_lt.mpr fits), decoded]
    exact (r.verdict_ok_iff id).mpr accepted

theorem acknowledges_take (id : UInt64) (line : List UInt8) :
    Acknowledges id (line.take (maxReply + 1)) ↔ Acknowledges id line := by
  rcases Nat.lt_or_ge (maxReply + 1) line.length with long | whole
  · constructor
    · intro taken
      have fits := taken.fits
      rw [List.length_take_of_le long.le] at fits
      exact absurd fits (Nat.not_succ_le_self maxReply)
    · intro taken
      have fits := taken.fits
      omega
  · rw [List.take_of_length_le whole]

inductive Turn where
  | receive (bytes : List UInt8)
  | finish
  | invoke (n : Notice)
  | close

/-- A call of a link, and what was there to read. -/
structure Call where
  link : Link
  notice : Notice
  incoming : Incoming

namespace Call

def invoked (c : Call) : Invoked := c.link.invoke c.notice c.incoming

/-- The bytes that a call takes from what was received. -/
def read (c : Call) : List UInt8 :=
  c.incoming.bytes.take (c.incoming.bytes.length - c.invoked.incoming.bytes.length)

def TimesOut (c : Call) : Prop := c.invoked.result = .error (.timeout c.link.patience)

variable {c : Call}

theorem invoked_of_open (isOpen : c.link.isOpen = true) :
    c.invoked.incoming = (c.incoming.read (maxReply + 1)).2 ∧
      c.invoked.link = { c.link with sent := c.link.sent + 1 } ∧
      c.invoked.request = some ((c.link.request c.notice).line ++ "\n") := by
  obtain ⟨link, request⟩ := Link.invoke_sends isOpen c.notice c.incoming
  refine ⟨?_, link, request⟩
  rw [invoked, Link.invoke, if_pos isOpen]
  simp only
  split <;> rename_i read <;> rw [read]

theorem invoked_of_closed (closed : c.link.isOpen = false) :
    c.invoked = ⟨c.link, c.incoming, none, .error .closed⟩ := by
  rw [invoked, Link.invoke, if_neg (Bool.eq_false_iff.mp closed)]

theorem ended_invoked (c : Call) : c.invoked.incoming.ended = c.incoming.ended := by
  cases isOpen : c.link.isOpen with
  | false => rw [invoked_of_closed isOpen]
  | true =>
    rw [(invoked_of_open isOpen).1]
    rfl

theorem isOpen_invoked (c : Call) : c.invoked.link.isOpen = c.link.isOpen := by
  cases isOpen : c.link.isOpen with
  | false => rw [invoked_of_closed isOpen, isOpen]
  | true =>
    rw [(invoked_of_open isOpen).2.1]
    exact isOpen

theorem bytes_of_open (isOpen : c.link.isOpen = true) :
    c.invoked.incoming.bytes =
      c.incoming.bytes.drop ((nextLine c.incoming.bytes).take (maxReply + 1)).length := by
  rw [(invoked_of_open isOpen).1, Incoming.read, takeLine_eq]

theorem read_of_open (isOpen : c.link.isOpen = true) :
    c.read = (nextLine c.incoming.bytes).take (maxReply + 1) := by
  have part := (List.take_prefix (maxReply + 1) _).trans (nextLine_starts c.incoming.bytes)
  have short := part.length_le
  rw [read, bytes_of_open isOpen, List.length_drop, Nat.sub_sub_self short]
  exact (List.prefix_iff_eq_take.mp part).symm

theorem read_of_closed (closed : c.link.isOpen = false) : c.read = [] := by
  rw [read, invoked_of_closed closed, Nat.sub_self, List.take_zero]

theorem read_append (c : Call) : c.read ++ c.invoked.incoming.bytes = c.incoming.bytes := by
  cases isOpen : c.link.isOpen with
  | false => rw [read_of_closed isOpen, invoked_of_closed isOpen, List.nil_append]
  | true =>
    have part := (List.take_prefix (maxReply + 1) _).trans (nextLine_starts c.incoming.bytes)
    rw [read_of_open isOpen, bytes_of_open isOpen]
    nth_rewrite 1 [List.prefix_iff_eq_take.mp part]
    exact List.take_append_drop _ _

theorem settled (isOpen : c.link.isOpen = true) (prompt : ¬c.TimesOut) :
    ((c.read.getLast? = some newline ∨ c.read.length = maxReply + 1) ∨ c.incoming.ended = true) ∧
      c.invoked.result = interpret (c.link.sent + 1) c.read := by
  have reads : c.incoming.read (maxReply + 1) =
      (if c.read.getLast? = some newline ∨ c.read.length = maxReply + 1 ∨ c.incoming.ended then
        some c.read else none, c.invoked.incoming) := by
    rw [read_of_open isOpen, (invoked_of_open isOpen).1, Incoming.read, takeLine_eq]
  by_cases complete :
      c.read.getLast? = some newline ∨ c.read.length = maxReply + 1 ∨ c.incoming.ended
  · rw [if_pos complete] at reads
    exact ⟨or_assoc.mpr complete, (Link.invoke_reads isOpen c.notice reads).1⟩
  · rw [if_neg complete] at reads
    refine absurd ?_ prompt
    rw [TimesOut, invoked, Link.invoke, if_pos isOpen]
    simp only [reads]

end Call

def Turn.arrived : Turn → List UInt8
  | .receive bytes => bytes
  | _ => []

def received (turns : List Turn) : List UInt8 := turns.flatMap Turn.arrived

def Turn.invokes : Turn → Bool
  | .invoke _ => true
  | _ => false

def invocations (turns : List Turn) : Nat := turns.countP Turn.invokes

/-- The courier's end of a connection. -/
structure Caller where
  link : Link
  incoming : Incoming

namespace Caller

def fresh (patience : Duration) : Caller := ⟨.fresh patience, .empty⟩

def call (c : Caller) (n : Notice) : Call := ⟨c.link, n, c.incoming⟩

def turn (c : Caller) : Turn → Caller
  | .receive bytes => { c with incoming := c.incoming.receive bytes }
  | .finish => { c with incoming := c.incoming.finish }
  | .invoke n => ⟨(c.call n).invoked.link, (c.call n).invoked.incoming⟩
  | .close => { c with link := c.link.close }

def turns (c : Caller) (ts : List Turn) : Caller := ts.foldl turn c

def calls (c : Caller) : List Turn → List Call
  | [] => []
  | .invoke n :: ts => c.call n :: calls (c.turn (.invoke n)) ts
  | t :: ts => calls (c.turn t) ts

theorem calls_append (c : Caller) (ts us : List Turn) :
    c.calls (ts ++ us) = c.calls ts ++ (c.turns ts).calls us := by
  induction ts generalizing c with
  | nil => rfl
  | cons t ts ih =>
    cases t with
    | invoke n => exact congrArg (c.call n :: ·) (ih _)
    | _ => exact ih _

theorem length_calls (c : Caller) (ts : List Turn) : (c.calls ts).length = invocations ts := by
  induction ts generalizing c with
  | nil => rfl
  | cons t ts ih =>
    cases t with
    | invoke n =>
      rw [calls, List.length_cons, ih]
      exact (List.countP_cons_of_pos rfl).symm
    | _ => exact (ih _).trans (List.countP_cons_of_neg Bool.false_ne_true).symm

/-- No byte is lost and none is read twice. -/
theorem reads_append (c : Caller) (ts : List Turn) :
    ((c.calls ts).map Call.read).flatten ++ (c.turns ts).incoming.bytes =
      c.incoming.bytes ++ received ts := by
  induction ts generalizing c with
  | nil => exact (List.append_nil _).symm
  | cons t ts ih =>
    have later : (c.turns (t :: ts)) = (c.turn t).turns ts := rfl
    have all : received (t :: ts) = t.arrived ++ received ts := List.flatMap_cons
    rw [later, all]
    cases t with
    | receive bytes => exact (ih _).trans (List.append_assoc _ _ _)
    | finish => exact ih _
    | close => exact ih _
    | invoke n =>
      rw [calls, List.map_cons, List.flatten_cons, List.append_assoc, ih, ← List.append_assoc]
      exact congrArg (· ++ received ts) (Call.read_append (c.call n))

theorem ended_turn (c : Caller) (t : Turn) :
    (c.turn t).incoming.ended = true ↔ c.incoming.ended = true ∨ t = .finish := by
  cases t with
  | receive bytes => simp [turn, Incoming.receive]
  | finish => simp [turn, Incoming.finish]
  | invoke n => simp [turn, Call.ended_invoked, call]
  | close => simp [turn]

theorem ended_turns (c : Caller) (ts : List Turn) :
    (c.turns ts).incoming.ended = true ↔ c.incoming.ended = true ∨ .finish ∈ ts := by
  induction ts generalizing c with
  | nil => simp [turns]
  | cons t ts ih =>
    have later : c.turns (t :: ts) = (c.turn t).turns ts := rfl
    rw [later, ih, ended_turn, List.mem_cons, or_assoc, eq_comm (a := t)]

theorem isOpen_turn (c : Caller) (t : Turn) :
    (c.turn t).link.isOpen = true ↔ c.link.isOpen = true ∧ t ≠ .close := by
  cases t with
  | receive bytes => simp [turn]
  | finish => simp [turn]
  | close => simp [turn, Link.close]
  | invoke n => simp [turn, Call.isOpen_invoked, call]

theorem isOpen_turns (c : Caller) (ts : List Turn) :
    (c.turns ts).link.isOpen = true ↔ c.link.isOpen = true ∧ .close ∉ ts := by
  induction ts generalizing c with
  | nil => simp [turns]
  | cons t ts ih =>
    have later : c.turns (t :: ts) = (c.turn t).turns ts := rfl
    rw [later, ih, isOpen_turn, List.mem_cons, not_or, and_assoc, ne_comm]

theorem sent_turns (c : Caller) (ts : List Turn) (isOpen : (c.turns ts).link.isOpen = true) :
    (c.turns ts).link.sent = c.link.sent + UInt64.ofNat (invocations ts) := by
  induction ts generalizing c with
  | nil => exact (UInt64.add_zero _).symm
  | cons t ts ih =>
    have later : c.turns (t :: ts) = (c.turn t).turns ts := rfl
    have all : invocations (t :: ts) = invocations ts + if t.invokes then 1 else 0 :=
      List.countP_cons
    rw [later] at isOpen ⊢
    obtain ⟨stillOpen, -⟩ := (isOpen_turn c t).mp ((isOpen_turns _ ts).mp isOpen).1
    rw [ih (c.turn t) isOpen, all]
    cases t with
    | invoke n =>
      have sends := (Call.invoked_of_open (c := c.call n) stillOpen).2.1
      have counted : (c.turn (.invoke n)).link.sent = c.link.sent + 1 := congrArg Link.sent sends
      have one : UInt64.ofNat (invocations ts + 1) = 1 + UInt64.ofNat (invocations ts) := by
        rw [UInt64.ofNat_add, UInt64.add_comm]
        rfl
      rw [counted, Turn.invokes, if_pos rfl, one, UInt64.add_assoc]
    | _ => rfl

/-- How much has been read when a call begins. -/
def position (calls : List Call) (k : Nat) : Nat := ((calls.take k).map Call.read).flatten.length

theorem position_succ {calls : List Call} {k : Nat} {call : Call} (found : calls[k]? = some call) :
    position calls (k + 1) = position calls k + call.read.length := by
  rw [position, position, List.take_add_one, found]
  simp

/-- Nothing comes once the driver has said that it is done. -/
def Orderly (turns : List Turn) : Prop :=
  turns.Pairwise fun turn later => turn = .finish → later.arrived = []

variable {c : Caller} {earlier later : List Turn} {n : Notice}

theorem received_invoke (earlier later : List Turn) (n : Notice) :
    received (earlier ++ .invoke n :: later) = received earlier ++ received later :=
  List.flatMap_append

theorem drop_position (c : Caller) (nothing : c.incoming.bytes = []) :
    (received (earlier ++ .invoke n :: later)).drop
        (position (c.calls (earlier ++ .invoke n :: later)) (invocations earlier)) =
      (c.turns earlier).incoming.bytes ++ received later := by
  have reads := reads_append c earlier
  have before : (c.calls (earlier ++ .invoke n :: later)).take (invocations earlier) =
      c.calls earlier := by
    rw [calls_append, ← length_calls c earlier, List.take_left]
  rw [nothing, List.nil_append] at reads
  rw [position, before, received_invoke, ← reads, List.append_assoc, List.drop_left]

theorem received_of_ended (orderly : Orderly (earlier ++ .invoke n :: later))
    (ended : .finish ∈ earlier) : received later = [] := by
  refine List.flatMap_eq_nil_iff.mpr fun t mem => ?_
  exact (List.pairwise_append.mp orderly).2.2 _ ended t (List.mem_cons_of_mem _ mem) rfl

/-- A call reads as much of the next line of the whole stream as it may. -/
theorem read_call (isOpen : (c.turns earlier).link.isOpen = true)
    (fresh : c.incoming = .empty) (prompt : ¬((c.turns earlier).call n).TimesOut)
    (orderly : Orderly (earlier ++ .invoke n :: later)) :
    ((c.turns earlier).call n).read =
      (nextLine ((c.turns earlier).incoming.bytes ++ received later)).take (maxReply + 1) := by
  have reads := Call.read_of_open (c := (c.turns earlier).call n) isOpen
  have settled := (Call.settled (c := (c.turns earlier).call n) isOpen prompt).1
  rw [reads] at settled ⊢
  rcases settled with settled | ended
  · exact (take_nextLine_append settled).symm
  · have finished : .finish ∈ earlier := by
      refine ((ended_turns c earlier).mp ended).resolve_left fun before => ?_
      rw [fresh] at before
      cases before
    rw [received_of_ended orderly finished, List.append_nil]
    rfl

end Caller

/-- What a call with this number does, if `rest` is all that comes from where it begins to read. -/
structure Call.Exchanges (c : Call) (number : UInt64) (rest : List UInt8) : Prop where
  request : c.invoked.request = some ((Request.ofNotice number c.notice).line ++ "\n")
  read : c.read = (nextLine rest).take (maxReply + 1)
  short : c.read.length ≤ maxReply + 1
  acknowledged : c.invoked.result = .ok () ↔ Acknowledges number (nextLine rest)

/-- What a call does on a link that was closed. -/
structure Call.Refused (c : Call) : Prop where
  request : c.invoked.request = none
  read : c.read = []
  result : c.invoked.result = .error .closed

namespace Caller

variable {patience : Duration} {earlier later : List Turn} {n : Notice}

theorem call_exchanges (notClosed : .close ∉ earlier)
    (prompt : ¬(((fresh patience).turns earlier).call n).TimesOut)
    (orderly : Orderly (earlier ++ .invoke n :: later)) :
    (((fresh patience).turns earlier).call n).Exchanges (UInt64.ofNat (invocations earlier + 1))
      (((fresh patience).turns earlier).incoming.bytes ++ received later) := by
  have isOpen : ((fresh patience).turns earlier).link.isOpen = true :=
    (isOpen_turns _ _).mpr ⟨rfl, notClosed⟩
  have sent : ((fresh patience).turns earlier).link.sent + 1 =
      UInt64.ofNat (invocations earlier + 1) := by
    rw [sent_turns _ _ isOpen, UInt64.ofNat_add]
    exact congrArg (· + 1) (UInt64.zero_add _)
  have reads := read_call isOpen rfl prompt orderly
  have result := (Call.settled isOpen prompt).2
  have request := (Call.invoked_of_open (c := ((fresh patience).turns earlier).call n) isOpen).2.2
  refine ⟨?_, reads, ?_, ?_⟩
  · rw [request, Link.request, ← sent]
    rfl
  · rw [reads]
    exact List.length_take_le _ _
  · rw [result, interpret_ok_iff, reads, acknowledges_take, ← sent]
    rfl

theorem call_refused (closed : .close ∈ earlier) :
    (((fresh patience).turns earlier).call n).Refused := by
  have shut : ((fresh patience).turns earlier).link.isOpen = false := by
    refine Bool.eq_false_iff.mpr fun isOpen => ?_
    exact ((isOpen_turns _ _).mp isOpen).2 closed
  have refused := Call.invoked_of_closed (c := ((fresh patience).turns earlier).call n) shut
  refine ⟨?_, Call.read_of_closed shut, ?_⟩
  · rw [refused]
  · rw [refused]

theorem calls_getElem? (c : Caller) (earlier later : List Turn) (n : Notice) :
    (c.calls (earlier ++ .invoke n :: later))[invocations earlier]? =
      some ((c.turns earlier).call n) := by
  rw [calls_append, ← length_calls c earlier, List.getElem?_append_right (Nat.le_refl _),
    Nat.sub_self]
  rfl

end Caller

/-- However a driver replies, no reply is taken for the answer to another call than the one that reads
it. The calls share out the bytes that come, in order: each begins to read where the one before it
stopped. While the link is open, the call number `k` sends a request with the number `k`, reads the
next line of all that comes, but at most one byte more than a reply may have, and is acknowledged
exactly if this line fits and answers its number. Once the link is closed, calls fail without sending
or reading anything. -/
theorem replies_attributed (patience : Duration) (turns : List Turn)
    (prompt : ∀ call ∈ (Caller.fresh patience).calls turns, ¬call.TimesOut)
    (orderly : Caller.Orderly turns) :
    let calls := (Caller.fresh patience).calls turns
    received turns =
        (calls.map Call.read).flatten ++ ((Caller.fresh patience).turns turns).incoming.bytes ∧
      ∀ earlier n later, turns = earlier ++ .invoke n :: later →
        let k := invocations earlier
        ∃ call, calls[k]? = some call ∧ call.notice = n ∧
          Caller.position calls (k + 1) = Caller.position calls k + call.read.length ∧
          (.close ∉ earlier → call.Exchanges (UInt64.ofNat (k + 1))
            ((received turns).drop (Caller.position calls k))) ∧
          (.close ∈ earlier → call.Refused) := by
  intro calls
  refine ⟨(Caller.reads_append (.fresh patience) turns).symm, ?_⟩
  intro earlier n later whole k
  subst whole
  have found := Caller.calls_getElem? (.fresh patience) earlier later n
  refine ⟨_, found, rfl, Caller.position_succ found, ?_, Caller.call_refused⟩
  intro notClosed
  rw [Caller.drop_position _ rfl]
  exact Caller.call_exchanges notClosed (prompt _ (List.mem_of_getElem? found)) orderly

/-- A call that is answered, and one after the link was closed. -/
def answered (n : Notice) : List Turn :=
  [.receive (lineOf (Response.accepted 1).line), .invoke n, .close, .invoke n]

theorem nextLine_lineOf (r : Response) : nextLine (lineOf r.line) = lineOf r.line := by
  have split := splitLines_lineOf r.printable_line []
  rw [List.append_nil] at split
  rw [nextLine, split]
  rfl

theorem replies_attributed_answered :
    let n := Notice.deadNode ⟨"s1", by decide⟩ "n1"
    let calls := (Caller.fresh ⟨1⟩).calls (answered n)
    (∀ call ∈ calls, ¬call.TimesOut) ∧ Caller.Orderly (answered n) ∧
      calls.map (·.invoked.result) = [.ok (), .error .closed] := by
  intro n calls
  have fits : (lineOf (Response.accepted 1).line).length ≤ maxReply := by decide +kernel
  have read := read_lineOf (Response.accepted 1).printable_line (maxReply + 1)
  rw [List.take_of_length_le (Nat.le_succ_of_le fits)] at read
  have prompt : ∀ call ∈ calls, ¬call.TimesOut := by
    intro call mem late
    rcases List.mem_pair.mp mem with rfl | rfl
    · have answer := (Link.invoke_reads (l := .fresh ⟨1⟩) rfl n read).1
      rw [interpret_line _ _ fits] at answer
      exact nomatch answer.symm.trans late
    · exact nomatch late
  have orderly : Caller.Orderly (answered n) := by
    simp [Caller.Orderly, answered]
  obtain ⟨-, each⟩ := replies_attributed ⟨1⟩ (answered n) prompt orderly
  obtain ⟨first, found, -, -, isOpen, -⟩ := each [.receive _] n [.close, .invoke n] rfl
  obtain ⟨second, found', -, -, -, closed⟩ := each [.receive _, .invoke n, .close] n [] rfl
  have first_ok : first.invoked.result = .ok () := by
    refine (isOpen (by simp)).acknowledged.mpr ?_
    change Acknowledges 1 (nextLine (lineOf (Response.accepted 1).line ++ []))
    rw [List.append_nil, nextLine_lineOf, ← interpret_ok_iff, interpret_line _ _ fits]
    rfl
  have second_closed := (closed (by simp)).result
  refine ⟨prompt, orderly, ?_⟩
  obtain rfl := Option.some.inj found
  obtain rfl := Option.some.inj found'
  exact congrArg₂ (fun a b => [a, b]) first_ok second_closed

end SessionCourier.Wire
