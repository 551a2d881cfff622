import SessionCourier.Proofs.Json.Decoding
import SessionCourier.Proofs.Wire.Framing
import SessionCourier.Wire.Link

set_option autoImplicit false

namespace SessionCourier.Wire

open Json

theorem Rejection.takes_encode (r : Rejection) : Takes decoder r.encode r := by
  refine Record.takes_decoder "struct RpcError" ⟨(by decide : ["code", "message"].Nodup),
    List.Subset.refl ["code", "message"], ?_⟩
  exact ((Record.fills_pure Rejection.mk).and (Record.fills_required (takes_text r.code) rfl)).and
    (Record.fills_required (takes_text r.message) rfl)

theorem Rejection.readable_encode (r : Rejection) (depth : Nat) : Readable (depth + 1) r.encode := by
  apply Readable.object
  simp [Readable.string]

namespace Response

variable {look : String → Option Value}

theorem takes_id (id : Option UInt64) :
    Takes (option (word64 "u64")) (.ofOption (fun id => .integer id.toNat) id) id := by
  cases id with
  | none => exact takes_option_none _
  | some id => exact takes_option_some (takes_word64 "u64" id) nofun

theorem fills (r : Response)
    (id : look "id" = some (.ofOption (fun id => .integer (UInt64.toNat id)) r.id))
    (success : look "success" = some (.boolean r.success))
    (error : (Record.orElse "error" (option Rejection.decoder) none).Fills look r.error) :
    record.Fills look r :=
  (((Record.fills_pure Response.mk).and (Record.fills_nullable (takes_id r.id) id)).and
    (Record.fills_required (takes_boolean r.success) success)).and error

theorem takes_encode (r : Response) : Takes decoder r.encode r := by
  apply Record.takes_decoder
  obtain ⟨id, success, error⟩ := r
  cases error with
  | none =>
    refine ⟨(by decide : ["id", "success"].Nodup),
      (by decide : ["id", "success"] ⊆ ["id", "success", "error"]), ?_⟩
    exact fills _ rfl rfl (Record.fills_orElse_absent (option Rejection.decoder) none rfl)
  | some rejection =>
    refine ⟨(by decide : ["id", "success", "error"].Nodup),
      List.Subset.refl ["id", "success", "error"], ?_⟩
    have body : Takes (option Rejection.decoder) rejection.encode (some rejection) :=
      takes_option_some rejection.takes_encode nofun
    exact fills _ rfl rfl (Record.fills_orElse none body rfl)

theorem readable_encode (r : Response) (depth : Nat) : Readable (depth + 2) r.encode := by
  obtain ⟨id, success, error⟩ := r
  have number : Readable (depth + 1) (.ofOption (fun id => .integer (UInt64.toNat id)) id) := by
    cases id with
    | none => exact .null
    | some id => exact .integer (fits_natCast id.toNat_lt)
  apply Readable.object
  cases error with
  | none => simp [number, Readable.boolean]
  | some rejection => simp [number, Readable.boolean, rejection.readable_encode depth]

theorem ofLine_line (r : Response) : ofLine r.line = .ok r :=
  decodeText_compact (r.readable_encode 125) r.takes_encode

theorem printable_line (r : Response) : Printable r.line.toList := by
  rw [line, Value.compact, String.toList_ofList]
  exact printable_write r.encode

theorem trimEnd_line (r : Response) : Text.trimEnd (r.line ++ "\n") = r.line := by
  obtain ⟨cs, shape⟩ : ∃ cs, r.encode.write = cs ++ ['\x7d'] := ⟨_, rfl⟩
  have newline : Text.isBlank '\n' = true := by decide
  have bracket : Text.isBlank '\x7d' = false := by decide
  rw [line, Value.compact, shape]
  simp [Text.trimEnd, newline, bracket]

theorem verdict_ofResult (id : UInt64) (decided : Except Rejection Unit) :
    (ofResult id decided).verdict id = decided.mapError fun r => .rejected r.code r.message := by
  cases decided <;> simp [ofResult, verdict, accepted, rejected, Except.mapError]

end Response

variable (id : UInt64)

theorem interpret_line (r : Response) (fits : (lineOf r.line).length ≤ maxReply) :
    interpret id (lineOf r.line) = r.verdict id := by
  have text : r.line ++ "\n" ≠ "" := by
    intro empty
    simpa using congrArg String.toList empty
  rw [interpret, textOf?_lineOf]
  simp only [if_neg text, if_neg (Nat.not_lt.2 fits), r.trimEnd_line, r.ofLine_line]

theorem interpret_long {reply : List UInt8} (long : maxReply < reply.length) :
    interpret id reply ≠ .ok () := by
  rw [interpret]
  split
  · exact nofun
  · rw [if_pos long]
    split <;> exact nofun

end SessionCourier.Wire
