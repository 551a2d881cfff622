import Mathlib.Data.UInt
import SessionCourier.Proofs.Text.Decimal

set_option autoImplicit false

namespace SessionCourier.Decimal

variable {text text' : String} {digits : List Char} {n : Nat}

theorem readRange_toNat_iff {low high : UInt64} :
    (readRange text low high).map UInt64.toNat = some n ↔
      Denotes text.toList n ∧ n ≤ 2 ^ 64 - 1 ∧ low.toNat ≤ n ∧ n ≤ high.toNat := by
  simp only [Option.map_eq_some_iff, readRange_iff, UInt64.le_iff_toNat_le]
  constructor
  · rintro ⟨w, ⟨denotes, range⟩, rfl⟩
    exact ⟨denotes, Nat.le_sub_one_of_lt w.toNat_lt, range⟩
  · rintro ⟨denotes, word, range⟩
    have exact : (UInt64.ofNat n).toNat = n := UInt64.toNat_ofNat_of_lt' (Nat.lt_of_le_pred (by decide) word)
    exact ⟨UInt64.ofNat n, by rw [exact]; exact ⟨denotes, range⟩, exact⟩

theorem readRange_eq_none_iff {low high : UInt64} :
    readRange text low high = none ↔
      ¬∃ n, Denotes text.toList n ∧ n ≤ 2 ^ 64 - 1 ∧ low.toNat ≤ n ∧ n ≤ high.toNat := by
  simp only [← readRange_toNat_iff]
  cases readRange text low high with
  | none => exact iff_of_true rfl nofun
  | some w => exact iff_of_false nofun fun unread => unread ⟨w.toNat, rfl⟩

theorem readSizeRange_iff {low high w : USize} :
    readSizeRange text low high = some w ↔ Denotes text.toList w.toNat ∧ low ≤ w ∧ w ≤ high := by
  rw [readSizeRange, USize.le_iff_toNat_le, USize.le_iff_toNat_le]
  have small : w.toNat ≤ USize.size - 1 := Nat.le_sub_one_of_lt w.toNat_lt_size
  constructor
  · intro given
    split at given
    · rename_i n number
      obtain ⟨denotes, fits⟩ := read_iff.mp number
      split at given
      · obtain rfl : USize.ofNat n = w := Option.some.inj given
        have exact : (USize.ofNat n).toNat = n :=
          USize.toNat_ofNat_of_lt' (Nat.lt_of_le_pred USize.size_pos fits)
        rw [exact]
        exact ⟨denotes, ‹_›⟩
      · cases given
    · cases given
  · rintro ⟨denotes, range⟩
    rw [read_iff.mpr ⟨denotes, small⟩]
    dsimp only
    rw [if_pos range, USize.ofNat_toNat]

theorem exists_size_of_le {high : USize} {w : UInt64} (le : w ≤ high.toUInt64) :
    ∃ size : USize, size.toUInt64 = w := by
  rw [UInt64.le_iff_toNat_le, USize.toNat_toUInt64] at le
  have fits : w.toNat < USize.size := le.trans_lt high.toNat_lt_size
  refine ⟨USize.ofNat w.toNat, UInt64.toNat_inj.mp ?_⟩
  rw [USize.toNat_toUInt64, USize.toNat_ofNat_of_lt' fits]

theorem readSizeRange_eq (text : String) (low high : USize) :
    (readSizeRange text low high).map USize.toUInt64 =
      readRange text low.toUInt64 high.toUInt64 := by
  refine Option.ext fun w => ?_
  rw [Option.map_eq_some_iff, readRange_iff]
  constructor
  · rintro ⟨size, given, rfl⟩
    rw [USize.toNat_toUInt64, USize.toUInt64_le, USize.toUInt64_le]
    exact readSizeRange_iff.mp given
  · rintro ⟨denotes, range⟩
    obtain ⟨size, rfl⟩ := exists_size_of_le range.2
    rw [USize.toNat_toUInt64] at denotes
    rw [USize.toUInt64_le, USize.toUInt64_le] at range
    exact ⟨size, readSizeRange_iff.mpr ⟨denotes, range⟩, rfl⟩

theorem denotes_digits (some : digits ≠ []) (all : ∀ c ∈ digits, c.isDigit = true) :
    Denotes digits n ↔ n = Nat.ofDigitChars 10 digits 0 := by
  obtain ⟨c, cs, rfl⟩ := List.exists_cons_of_ne_nil some
  have unsigned : c ≠ '+' := fun sign => absurd (sign ▸ all c List.mem_cons_self) (by decide)
  rw [denotes_unsigned unsigned, and_iff_right all]

theorem denotes_padded (some : digits ≠ []) (all : ∀ c ∈ digits, c.isDigit = true) (zeros : Nat) :
    (Denotes (List.replicate zeros '0' ++ digits) n ↔ Denotes digits n) ∧
      (Denotes ('+' :: (List.replicate zeros '0' ++ digits)) n ↔ Denotes digits n) := by
  have some' : List.replicate zeros '0' ++ digits ≠ [] := List.append_ne_nil_of_right_ne_nil _ some
  have all' : ∀ c ∈ List.replicate zeros '0' ++ digits, c.isDigit = true := by
    intro c mem
    rcases List.mem_append.mp mem with zero | digit
    · rw [List.eq_of_mem_replicate zero]
      decide
    · exact all c digit
  have value : Nat.ofDigitChars 10 (List.replicate zeros '0' ++ digits) 0 =
      Nat.ofDigitChars 10 digits 0 := by
    rw [Nat.ofDigitChars_append, Nat.ofDigitChars_replicate_zero, Nat.mul_zero]
  rw [denotes_signed, and_iff_right some', and_iff_right all', denotes_digits some' all',
    denotes_digits some all, value]
  exact ⟨Iff.rfl, Iff.rfl⟩

theorem readRange_congr (same : ∀ n, Denotes text.toList n ↔ Denotes text'.toList n)
    (low high : UInt64) : readRange text low high = readRange text' low high := by
  refine Option.ext fun w => ?_
  rw [readRange_iff, readRange_iff, same]

/-- A number between two bounds is read from exactly the texts that are digits, after at most one plus
sign, with a value that is a word and lies between the bounds; there is none for any other text. A size
is read like the word it is, and zeros may stand in front. -/
theorem reads_numbers_between :
    (∀ (text : String) (low high : UInt64) (n : Nat),
      (readRange text low high).map UInt64.toNat = some n ↔
        Denotes text.toList n ∧ n ≤ 2 ^ 64 - 1 ∧ low.toNat ≤ n ∧ n ≤ high.toNat) ∧
    (∀ (text : String) (low high : UInt64), readRange text low high = none ↔
      ¬∃ n, Denotes text.toList n ∧ n ≤ 2 ^ 64 - 1 ∧ low.toNat ≤ n ∧ n ≤ high.toNat) ∧
    (∀ (text : String) (low high : USize), (readSizeRange text low high).map USize.toUInt64 =
      readRange text low.toUInt64 high.toUInt64) ∧
    ∀ (digits : List Char) (zeros : Nat) (low high : UInt64), digits ≠ [] →
      (∀ c ∈ digits, c.isDigit = true) →
      readRange (String.ofList (List.replicate zeros '0' ++ digits)) low high =
        readRange (String.ofList digits) low high ∧
      readRange (String.ofList ('+' :: (List.replicate zeros '0' ++ digits))) low high =
        readRange (String.ofList digits) low high := by
  refine ⟨fun _ _ _ _ => readRange_toNat_iff, fun _ _ _ => readRange_eq_none_iff, readSizeRange_eq,
    fun digits zeros low high some all => ?_⟩
  constructor
  · refine readRange_congr (fun n => ?_) low high
    rw [String.toList_ofList, String.toList_ofList]
    exact (denotes_padded some all zeros).1
  · refine readRange_congr (fun n => ?_) low high
    rw [String.toList_ofList, String.toList_ofList]
    exact (denotes_padded some all zeros).2

/-- The second text would be the first number again if it were cut down to 64 bits. -/
theorem reads_numbers_between_padded :
    readRange "+00250" 1 1000 = some 250 ∧ readRange "18446744073709551866" 1 1000 = none := by
  obtain ⟨-, refused, -, padded⟩ := reads_numbers_between
  have plain : readRange "250" 1 1000 = some 250 := by decide
  have digits : ∀ c ∈ ['2', '5', '0'], c.isDigit = true := List.all_eq_true.mp (by decide)
  refine ⟨(padded ['2', '5', '0'] 2 1 1000 (by decide) digits).2.trans plain, ?_⟩
  refine (refused _ _ _).mpr ?_
  rintro ⟨n, denotes, word, -⟩
  have value := (denotes_digits (by decide) (List.all_eq_true.mp (by decide))).mp denotes
  have large : 2 ^ 64 - 1 < n := by
    rw [value]
    decide
  omega

end SessionCourier.Decimal
