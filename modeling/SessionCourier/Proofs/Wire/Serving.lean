import SessionCourier.Proofs.Notice.Handles
import SessionCourier.Proofs.Wire.Replies

set_option autoImplicit false

namespace SessionCourier.Wire

variable {σ : Type} {h : Handler σ} {s : σ} {line : String} {n : Notice}

theorem asked?_eq_some {id : UInt64} :
    asked? line = some (id, n) ↔
      ∃ request, Request.ofLine line = .ok request ∧ request.notice = .ok n ∧ request.id = id := by
  rw [asked?]
  cases Request.ofLine line with
  | error report => simp
  | ok request => cases notice : request.notice <;> simp [notice, and_comm]

variable {request : Request} {report : Json.Report}

theorem respond_of_no_request (h : Handler σ) (s : σ) (unread : Request.ofLine line = .error report) :
    respond h s line = (s, .rejected none parseError report.message) := by
  simp only [respond, unread]

theorem respond_of_no_notice (h : Handler σ) (s : σ) (read : Request.ofLine line = .ok request)
    (unknown : request.notice = .error report) :
    respond h s line = (s, .rejected (some request.id) invalidRequest
      (request.method ++ ": " ++ report.message)) := by
  simp only [respond, read, unknown]

theorem respond_of_notice (h : Handler σ) (s : σ) (read : Request.ofLine line = .ok request)
    (known : request.notice = .ok n) :
    respond h s line = ((h.handle s n).1, .ofResult request.id (h.handle s n).2) := by
  simp only [respond, read, known]

theorem Response.verdict_rejected (id : Option UInt64) (code message : String) (expected : UInt64) :
    (rejected id code message).verdict expected ≠ .ok () := by
  rw [ne_eq, verdict_ok_iff]
  rintro ⟨-, accepted⟩
  cases accepted

theorem respond_of_not_asked (h : Handler σ) (s : σ) (unasked : asked? line = none) :
    (respond h s line).1 = s ∧ (respond h s line).2.success = false ∧
      ∀ expected, (respond h s line).2.verdict expected ≠ .ok () := by
  cases read : Request.ofLine line with
  | error report =>
    rw [respond_of_no_request h s read]
    exact ⟨rfl, rfl, Response.verdict_rejected _ _ _⟩
  | ok request =>
    cases notice : request.notice with
    | error report =>
      rw [respond_of_no_notice h s read notice]
      exact ⟨rfl, rfl, Response.verdict_rejected _ _ _⟩
    | ok n =>
      have asked : asked? line = some (request.id, n) :=
        asked?_eq_some.mpr ⟨request, read, notice, rfl⟩
      rw [unasked] at asked
      cases asked

structure Answers (h : Handler σ) (s : σ) (line : String) (r : Response) : Prop where
  no_request : ∀ report, Request.ofLine line = .error report →
    r = .rejected none parseError report.message
  no_notice : ∀ request report, Request.ofLine line = .ok request → request.notice = .error report →
    r = .rejected (some request.id) invalidRequest (request.method ++ ": " ++ report.message)
  notice : ∀ request n, Request.ofLine line = .ok request → request.notice = .ok n →
    r = .ofResult request.id (h.handle s n).2
  refused : asked? line = none → r.success = false ∧ ∀ expected, r.verdict expected ≠ .ok ()

theorem respond_answers (h : Handler σ) (s : σ) (line : String) :
    Answers h s line (respond h s line).2 where
  no_request report unread := by rw [respond_of_no_request h s unread]
  no_notice request report read unknown := by rw [respond_of_no_notice h s read unknown]
  notice request n read known := by rw [respond_of_notice h s read known]
  refused unasked := (respond_of_not_asked h s unasked).2

def notices (lines : List String) : List Notice := (lines.filterMap asked?).map (·.2)

theorem memory_respond (h : Handler σ) (s : σ) (line : String) :
    (respond h s line).1 = (h.decideAll s (notices [line])).1 := by
  cases asked : asked? line with
  | none =>
    have none_asked : notices [line] = [] := by simp [notices, asked]
    rw [none_asked]
    exact (respond_of_not_asked h s asked).1
  | some pair =>
    obtain ⟨id, n⟩ := pair
    have one_asked : notices [line] = [n] := by simp [notices, asked]
    obtain ⟨request, read, known, -⟩ := asked?_eq_some.mp asked
    rw [one_asked, respond_of_notice h s read known]
    rfl

theorem notices_append (lines more : List String) :
    notices (lines ++ more) = notices lines ++ notices more := by
  simp [notices]

theorem memory_decideAll_append (h : Handler σ) (s : σ) (ns more : List Notice) :
    (h.decideAll s (ns ++ more)).1 = (h.decideAll (h.decideAll s ns).1 more).1 := by
  induction ns generalizing s with
  | nil => rfl
  | cons n ns ih => exact ih (h.handle s n).1

theorem memory_respondAll (h : Handler σ) (s : σ) (lines : List String) :
    (respondAll h s lines).1 = (h.decideAll s (notices lines)).1 := by
  induction lines generalizing s with
  | nil => rfl
  | cons line lines ih =>
    have first : notices (line :: lines) = notices [line] ++ notices lines :=
      notices_append [line] lines
    rw [first, memory_decideAll_append, ← memory_respond]
    exact ih (respond h s line).1

theorem respondAll_append (h : Handler σ) (s : σ) (lines more : List String) :
    respondAll h s (lines ++ more) =
      ((respondAll h (respondAll h s lines).1 more).1,
        (respondAll h s lines).2 ++ (respondAll h (respondAll h s lines).1 more).2) := by
  induction lines generalizing s with
  | nil => rfl
  | cons line lines ih => simp only [List.cons_append, respondAll, ih]

theorem length_respondAll (h : Handler σ) (s : σ) (lines : List String) :
    (respondAll h s lines).2.length = lines.length := by
  induction lines generalizing s with
  | nil => rfl
  | cons line lines ih => exact congrArg (· + 1) (ih (respond h s line).1)

theorem respondAll_answers (h : Handler σ) (s : σ) (lines : List String) {k : Nat}
    (found : lines[k]? = some line) :
    ∃ r, (respondAll h s lines).2[k]? = some r ∧
      Answers h (h.decideAll s (notices (lines.take k))).1 line r := by
  induction lines generalizing s k with
  | nil => cases found
  | cons first lines ih =>
    cases k with
    | zero =>
      cases found
      exact ⟨_, rfl, respond_answers h s _⟩
    | succ k =>
      obtain ⟨r, here, answers⟩ := ih (respond h s first).1 found
      refine ⟨r, here, ?_⟩
      have whole : notices ((first :: lines).take (k + 1)) =
          notices [first] ++ notices (lines.take k) := notices_append [first] (lines.take k)
      rwa [whole, memory_decideAll_append, ← memory_respond]

/-- To note what the handler is asked about changes no answer. -/
theorem respond_noting (h : Handler σ) (s : σ) (noted : List Notice) (line : String) :
    respond h.noting (s, noted) line =
      (((respond h s line).1, noted ++ notices [line]), (respond h s line).2) := by
  cases read : Request.ofLine line with
  | error report =>
    have asked : notices [line] = [] := by simp [notices, asked?, read]
    rw [respond_of_no_request _ _ read, respond_of_no_request _ _ read, asked, List.append_nil]
  | ok request =>
    cases notice : request.notice with
    | error report =>
      have asked : notices [line] = [] := by simp [notices, asked?, read, notice]
      rw [respond_of_no_notice _ _ read notice, respond_of_no_notice _ _ read notice, asked,
        List.append_nil]
    | ok n =>
      have asked : notices [line] = [n] := by simp [notices, asked?, read, notice]
      rw [respond_of_notice _ _ read notice, respond_of_notice _ _ read notice, asked]
      rfl

theorem respondAll_noting (h : Handler σ) (s : σ) (noted : List Notice) (lines : List String) :
    respondAll h.noting (s, noted) lines =
      (((respondAll h s lines).1, noted ++ notices lines), (respondAll h s lines).2) := by
  induction lines generalizing s noted with
  | nil => simp [respondAll, notices]
  | cons line lines ih =>
    have whole : notices (line :: lines) = notices [line] ++ notices lines :=
      notices_append [line] lines
    simp only [respondAll, respond_noting, ih, whole, List.append_assoc]

/-- A line that is not asked about can be left out. -/
theorem respondAll_leave_out (h : Handler σ) (s : σ) (before after : List String) {bad : String}
    (unasked : asked? bad = none) :
    ∃ first r later, (respondAll h s (before ++ bad :: after)).2 = first ++ r :: later ∧
      first.length = before.length ∧
      respondAll h s (before ++ after) =
        ((respondAll h s (before ++ bad :: after)).1, first ++ later) := by
  have kept := (respond_of_not_asked h (respondAll h s before).1 unasked).1
  refine ⟨(respondAll h s before).2, (respond h (respondAll h s before).1 bad).2,
    (respondAll h (respondAll h s before).1 after).2, ?_, length_respondAll h s before, ?_⟩
  · simp only [respondAll_append, respondAll, kept]
  · simp only [respondAll_append, respondAll, kept]

def written (responses : List Response) : List UInt8 := responses.flatMap fun r => lineOf r.line

theorem written_eq (responses : List Response) :
    written responses = (responses.map Response.line).flatMap lineOf := by
  rw [written, List.flatMap_map]

theorem printable_lines (responses : List Response) :
    ∀ t ∈ responses.map Response.line, Json.Printable t.toList := by
  intro t mem
  obtain ⟨r, -, rfl⟩ := List.mem_map.mp mem
  exact r.printable_line

theorem map_ofLine_written (responses : List Response) :
    (textLines (written responses)).map Response.ofLine = responses.map .ok := by
  rw [written_eq, textLines_lines (printable_lines responses), List.map_map]
  exact List.map_congr_left fun r _ => r.ofLine_line

theorem takeWhile_isSome {texts : List (Option String)} (all : ∀ t ∈ texts, t.isSome = true) :
    ((texts.takeWhile Option.isSome).filterMap id).map some = texts := by
  induction texts with
  | nil => rfl
  | cons t texts ih =>
    have later := ih fun u mem => all u (List.mem_cons_of_mem t mem)
    cases t with
    | none => exact absurd (all none List.mem_cons_self) Bool.false_ne_true
    | some text => exact congrArg (some text :: ·) later

theorem textLines_of_texts {bytes : List UInt8}
    (texts : ∀ line ∈ splitLines bytes, (textOf? (chomp line)).isSome = true) :
    (textLines bytes).map some = (splitLines bytes).map fun line => textOf? (chomp line) := by
  rw [textLines]
  apply takeWhile_isSome
  intro t mem
  obtain ⟨line, old, rfl⟩ := List.mem_map.mp mem
  exact texts line old

/-- A service answers every line of a connection, up to the first that is no text, with one response,
in order, and what it writes is read back as these responses. It asks the handler about the notices
of the lines that are requests about one, once each and in order, with what the handler remembers
from those before; each is about the session that the request names, which is not the empty text. A
line that it does not ask about is refused, under any number a link may expect, and can be left out
without changing anything else. -/
theorem serves_line_by_line (h : Handler σ) (s : σ) (bytes : List UInt8) :
    let lines := textLines bytes
    let served := serve h s bytes
    ((∀ line ∈ splitLines bytes, (textOf? (chomp line)).isSome = true) →
      lines.map some = (splitLines bytes).map fun line => textOf? (chomp line)) ∧
    served.2.length = lines.length ∧
    splitLines (written served.2) = served.2.map (fun r => lineOf r.line) ∧
    (textLines (written served.2)).map Response.ofLine = served.2.map .ok ∧
    serve h.noting (s, []) bytes = ((served.1, notices lines), served.2) ∧
    served.1 = (h.decideAll s (notices lines)).1 ∧
    (∀ line ∈ lines, ∀ id n, asked? line = some (id, n) →
      ∃ request members, Request.ofLine line = .ok request ∧ request.id = id ∧
        request.params = .object members ∧
        members.lookup "handle" = some (.string n.handle.text) ∧ n.handle.text ≠ "") ∧
    (∀ (k : Nat) (line : String), lines[k]? = some line → ∃ r, served.2[k]? = some r ∧
      Answers h (h.decideAll s (notices (lines.take k))).1 line r) ∧
    ∀ before bad after, lines = before ++ bad :: after → asked? bad = none →
      ∃ first r later, served.2 = first ++ r :: later ∧ first.length = before.length ∧
        respondAll h s (before ++ after) = (served.1, first ++ later) := by
  intro lines served
  refine ⟨textLines_of_texts, length_respondAll h s lines, ?_, map_ofLine_written served.2, ?_,
    memory_respondAll h s lines, ?_, ?_, ?_⟩
  · rw [written_eq, splitLines_lines (printable_lines served.2), List.map_map]
    rfl
  · exact respondAll_noting h s [] lines
  · intro line _ id n asked
    obtain ⟨request, read, known, same⟩ := asked?_eq_some.mp asked
    obtain ⟨members, params, named⟩ := Request.handle_of_notice known
    exact ⟨request, members, read, same, params, named, n.handle.nonempty⟩
  · intro k line found
    exact respondAll_answers h s lines found
  · intro before bad after whole unasked
    have apart := respondAll_leave_out h s before after unasked
    rwa [← whole] at apart

/-- Accepts everything, and counts. -/
def counting : Handler Nat := ⟨fun k _ => (k + 1, .ok ())⟩

/-- Two requests about one notice, and something else between them. -/
def garbled (n : Notice) : List String :=
  [(Request.ofNotice 1 n).line, "?", (Request.ofNotice 2 n).line]

theorem serves_line_by_line_garbled :
    ∃ n, asked? "?" = none ∧ textLines ((garbled n).flatMap lineOf) = garbled n ∧
      ∃ first r later, (serve counting 0 ((garbled n).flatMap lineOf)).2 = first ++ r :: later ∧
        first.length = 1 ∧ respondAll counting 0 [(Request.ofNotice 1 n).line,
          (Request.ofNotice 2 n).line] = (2, first ++ later) := by
  let n : Notice := .deadNode ⟨"s1", by decide⟩ "n1"
  have unasked : asked? "?" = none := by decide +kernel
  have lines : textLines ((garbled n).flatMap lineOf) = garbled n := by
    apply textLines_lines
    intro t mem
    simp only [garbled, List.mem_cons, List.not_mem_nil, or_false] at mem
    rcases mem with rfl | rfl | rfl
    · exact Request.printable_line _
    · exact Json.printable_cons.mpr ⟨by decide, Json.printable_nil⟩
    · exact Request.printable_line _
  obtain ⟨-, -, -, -, -, memory, -, -, leave_out⟩ :=
    serves_line_by_line counting 0 ((garbled n).flatMap lineOf)
  have counted : (serve counting 0 ((garbled n).flatMap lineOf)).1 = 2 := by
    rw [memory, lines]
    simp [notices, garbled, asked?_line, unasked, Handler.decideAll, counting]
  obtain ⟨first, r, later, whole, one, rest⟩ :=
    leave_out [(Request.ofNotice 1 n).line] "?" [(Request.ofNotice 2 n).line] lines unasked
  rw [counted] at rest
  exact ⟨n, unasked, lines, first, r, later, whole, one, rest⟩

end SessionCourier.Wire
