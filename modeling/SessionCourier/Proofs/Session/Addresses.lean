import Mathlib.Data.UInt
import SessionCourier.Proofs.Text.Decimal
import SessionCourier.Proofs.Text.Split
import SessionCourier.Session.Address

set_option autoImplicit false

namespace SessionCourier.Address

variable {text host digits : String} {port : UInt16} {a : Address}

theorem splitLast?_of_denotes {before after : List Char} {n : Nat}
    (denotes : Decimal.Denotes after n) :
    Text.splitLast? ':' (before ++ ':' :: after) = some (before, after) := by
  refine Text.splitLast?_iff.mpr ⟨rfl, fun mem => ?_⟩
  rcases Decimal.mem_of_denotes denotes mem with sign | digit
  · exact absurd sign (by decide)
  · exact absurd digit (by decide)

theorem parse_of_denotes (named : host ≠ "") (denotes : Decimal.Denotes digits.toList port.toNat) :
    parse (host ++ ":" ++ digits) = .ok ⟨host, port⟩ := by
  have small : port.toNat ≤ UInt16.size - 1 := Nat.le_sub_one_of_lt port.toNat_lt
  have some_left : host.toList ≠ [] := fun none_left => named (String.toList_eq_nil_iff.mp none_left)
  obtain ⟨c, cs, shape⟩ := List.exists_cons_of_ne_nil some_left
  rw [parse, Text.toList_joined ':' rfl, splitLast?_of_denotes denotes, shape]
  simp only [Decimal.read_iff.mpr ⟨denotes, small⟩]
  rw [← shape, String.ofList_toList, UInt16.ofNat_toNat]

theorem denotes_of_parse (read : parse text = .ok a) :
    a.host ≠ "" ∧ ∃ digits, text = a.host ++ ":" ++ digits ∧
      Decimal.Denotes digits.toList a.port.toNat := by
  unfold parse at read
  split at read
  · cases read
  · cases read
  · rename_i before after named split
    obtain ⟨whole, -⟩ := Text.splitLast?_iff.mp split
    have named : String.ofList before ≠ "" := mt String.ofList_eq_empty_iff.mp named
    cases number : Decimal.read (UInt16.size - 1) after with
    | error refusal =>
      rw [number] at read
      cases read
    | ok n =>
      obtain ⟨denotes, fits⟩ := Decimal.read_iff.mp number
      rw [number] at read
      obtain rfl := Except.ok.inj read
      have exact : (UInt16.ofNat n).toNat = n :=
        UInt16.toNat_ofNat_of_lt' (Nat.lt_of_le_pred (by decide) fits)
      refine ⟨named, String.ofList after, ?_, ?_⟩
      · exact (Text.joined_iff ':' rfl).mpr (by rw [whole, String.toList_ofList])
      · rw [String.toList_ofList, exact]
        exact denotes

theorem parse_iff :
    parse text = .ok ⟨host, port⟩ ↔ ∃ digits, text = host ++ ":" ++ digits ∧ host ≠ "" ∧
      Decimal.Denotes digits.toList port.toNat := by
  constructor
  · intro read
    obtain ⟨named, digits, whole, denotes⟩ := denotes_of_parse read
    exact ⟨digits, whole, named, denotes⟩
  · rintro ⟨digits, rfl, named, denotes⟩
    exact parse_of_denotes named denotes

theorem parse_render (named : a.host ≠ "") : parse a.render = .ok a :=
  parse_of_denotes named (Decimal.denotes_render a.port.toNat)

/-- The written form of the address that a text gives. -/
def respell? (text : String) : Option String := (parse text).toOption.map render

theorem respell?_iff {written : String} :
    respell? text = some written ↔ ∃ a, parse text = .ok a ∧ a.render = written := by
  rw [respell?, Option.map_eq_some_iff]
  refine exists_congr fun a => and_congr_left fun _ => ?_
  cases parse text with
  | ok b => rw [Except.toOption, Option.some_inj, Except.ok.injEq]
  | error refusal => exact iff_of_false nofun nofun

/-- An address is read from exactly the texts that are its host, which is not empty, a colon and
digits for its port, after at most one plus sign. What is written of it is read back, and so a text
that was read and written once is written in the same way ever after. -/
theorem texts_read_back :
    (∀ text host port, parse text = .ok ⟨host, port⟩ ↔
      ∃ digits, text = host ++ ":" ++ digits ∧ host ≠ "" ∧
        Decimal.Denotes digits.toList port.toNat) ∧
    (∀ a : Address, a.host ≠ "" → parse a.render = .ok a) ∧
    (∀ text a, parse text = .ok a → parse a.render = .ok a) ∧
    ∀ text written, respell? text = some written → respell? written = some written := by
  refine ⟨fun _ _ _ => parse_iff, fun _ => parse_render,
    fun _ _ read => parse_render (denotes_of_parse read).1, fun text written given => ?_⟩
  obtain ⟨a, read, rfl⟩ := respell?_iff.mp given
  exact respell?_iff.mpr ⟨a, parse_render (denotes_of_parse read).1, rfl⟩

/-- A host with colons, and a port with a sign and zeros. -/
theorem texts_read_back_padded :
    parse "[::1]:+0080" = .ok ⟨"[::1]", 80⟩ ∧ parse "[::1]:80" = .ok ⟨"[::1]", 80⟩ ∧
      respell? "[::1]:80" = some "[::1]:80" := by
  obtain ⟨accepts, -, again, settled⟩ := texts_read_back
  have padded : parse "[::1]:+0080" = .ok ⟨"[::1]", 80⟩ :=
    (accepts _ _ _).mpr ⟨"+0080", by decide, by decide, ['0', '0', '8', '0'], .inr rfl, by simp,
      List.all_eq_true.mp (by decide), rfl⟩
  have written : Address.render ⟨"[::1]", 80⟩ = "[::1]:80" := by decide
  have given : respell? "[::1]:+0080" = some "[::1]:80" := respell?_iff.mpr ⟨_, padded, written⟩
  exact ⟨padded, written ▸ again _ _ padded, settled _ _ given⟩

end SessionCourier.Address
