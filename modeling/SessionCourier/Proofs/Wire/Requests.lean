import SessionCourier.Proofs.Notice.Decoding
import SessionCourier.Proofs.Wire.Framing

set_option autoImplicit false

namespace SessionCourier.Wire

open Json

namespace Request

theorem written (r : Request) :
    record.Written [("id", .integer r.id.toNat), ("method", .string r.method), ("params", r.params)]
      ⟨r.id, r.method, r.params.canonical⟩ where
  nodup := (by decide : ["id", "method", "params"].Nodup)
  known := List.Subset.refl ["id", "method", "params"]
  fills := (((Record.fills_pure Request.mk).and
    (Record.fills_required (takes_word64 "u64" r.id) rfl)).and
    (Record.fills_required (takes_text r.method) rfl)).and
    (Record.fills_orElse .null (takes_anyValue r.params) rfl)

theorem takes_encode (r : Request) : Takes decoder r.encode ⟨r.id, r.method, r.params.canonical⟩ :=
  Record.takes_decoder "struct RpcRequest" r.written

theorem readable_encode {r : Request} {depth : Nat} (readable : Readable depth r.params) :
    Readable (depth + 1) r.encode := by
  have id : Fits r.id.toNat := fits_natCast r.id.toNat_lt
  apply Readable.object
  simp [Readable.string, Readable.integer id, readable]

/-- A request whose parameters are not nested too deep is read as itself, with sorted parameters. -/
theorem ofLine_line {r : Request} (readable : Readable 126 r.params) :
    ofLine r.line = .ok ⟨r.id, r.method, r.params.canonical⟩ :=
  decodeText_compact (readable_encode readable) r.takes_encode

theorem printable_line (r : Request) : Printable r.line.toList := by
  rw [line, Value.compact, String.toList_ofList]
  exact printable_write r.encode

variable (id : UInt64) (n : Notice)

theorem ofLine_ofNotice : ofLine (ofNotice id n).line = .ok (ofNotice id n) := by
  rw [ofLine_line (n.readable_params 122).canonical, ofNotice, Value.canonical_canonical]

/-- Members are written in order of their keys, and only what has to be is escaped. -/
example : (ofNotice 7 (.deadNode ⟨"ü\n", by decide⟩ "n\"1")).line =
    "\x7b\"id\":7,\"method\":\"processDeadNode\"," ++
      "\"params\":\x7b\"handle\":\"ü\\n\",\"node\":\"n\\\"1\"\x7d\x7d" := by
  decide +kernel

theorem notice_ofNotice : (ofNotice id n).notice = .ok n := decodeValue_ok n.takes_sorted

end Request

/-- The number and the notice of a line that is a request about one. -/
def asked? (line : String) : Option (UInt64 × Notice) :=
  match Request.ofLine line with
  | .error _ => none
  | .ok request =>
    match request.notice with
    | .error _ => none
    | .ok n => some (request.id, n)

theorem asked?_line (id : UInt64) (n : Notice) :
    asked? (Request.ofNotice id n).line = some (id, n) := by
  simp only [asked?, Request.ofLine_ofNotice, Request.notice_ofNotice]
  rfl

/-- A request is read back with its number and notice, and its line holds no control byte. Any number
of lines are taken apart as they were put together, and ask for what was sent. -/
theorem requests_read_back :
    (∀ id n, Request.ofLine (Request.ofNotice id n).line = .ok (Request.ofNotice id n) ∧
      (Request.ofNotice id n).notice = .ok n ∧
      ∀ b ∈ bytesOf (Request.ofNotice id n).line, 0x20 ≤ b.toNat) ∧
    ∀ sent : List (UInt64 × Notice),
      let lines := sent.map fun p => (Request.ofNotice p.1 p.2).line
      splitLines (lines.flatMap lineOf) = lines.map lineOf ∧
      textLines (lines.flatMap lineOf) = lines ∧
      (textLines (lines.flatMap lineOf)).map asked? = sent.map some := by
  constructor
  · intro id n
    exact ⟨Request.ofLine_ofNotice id n, Request.notice_ofNotice id n,
      bytesOf_printable (Request.printable_line _)⟩
  · intro sent lines
    have printable : ∀ t ∈ lines, Printable t.toList := by
      intro t mem
      obtain ⟨p, -, rfl⟩ := List.mem_map.1 mem
      exact Request.printable_line _
    refine ⟨splitLines_lines printable, textLines_lines printable, ?_⟩
    rw [textLines_lines printable, List.map_map]
    refine List.map_congr_left fun p _ => ?_
    rw [Function.comp, asked?_line]

end SessionCourier.Wire
