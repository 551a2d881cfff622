import SessionCourier.Json.Reader
import SessionCourier.Proofs.Json.Printing
import SessionCourier.Proofs.Text.Decimal

set_option autoImplicit false

namespace SessionCourier.Json

variable {cs rest : List Char} {c : Char} {n fuel size : Nat}

theorem isDigit_eq (c : Char) : isDigit c = c.isDigit := by
  rw [Bool.eq_iff_iff, isDigit, Char.isDigit, Bool.and_eq_true, Bool.and_eq_true]
  simp [Char.le_def]

theorem isDigit_of_mem (mem : c ∈ Nat.toDigits 10 n) : isDigit c = true := by
  rw [isDigit_eq]
  exact Nat.isDigit_of_mem_toDigits (by decide) (by decide) mem

theorem toDigits_front (positive : 0 < n) : ∃ c cs, Nat.toDigits 10 n = c :: cs ∧ c ≠ '0' := by
  induction n using Nat.strongRecOn with
  | _ n ih =>
    rw [Nat.toDigits_eq_if (by decide)]
    split
    · refine ⟨n.digitChar, [], rfl, ?_⟩
      rw [ne_eq, Nat.digitChar_eq_zero]
      omega
    · obtain ⟨c, cs, eq, front⟩ := ih (n / 10) (by omega) (by omega)
      exact ⟨c, cs ++ [(n % 10).digitChar], by rw [eq, List.cons_append], front⟩

theorem absorb_all {bound value : Nat} (within : Nat.ofDigitChars 10 cs value ≤ bound) :
    Numeral.absorb bound value cs = (Nat.ofDigitChars 10 cs value, []) := by
  induction cs generalizing value with
  | nil => simp [Numeral.absorb]
  | cons c cs ih =>
    rw [Nat.ofDigitChars_cons] at within ⊢
    have next : value * 10 + (c.toNat - '0'.toNat) = 10 * value + (c.toNat - '0'.toNat) := by
      rw [Nat.mul_comm]
    have step := Nat.le_trans (Decimal.le_ofDigitChars cs _) within
    rw [Numeral.absorb, next, if_neg (Nat.not_lt.2 step), ih within]

theorem absorb_toDigits {bound : Nat} (within : n ≤ bound) :
    Numeral.absorb bound 0 (Nat.toDigits 10 n) = (n, []) := by
  have value : Nat.ofDigitChars 10 (Nat.toDigits 10 n) 0 = n := Nat.ofDigitChars_ten_toDigits
  rw [absorb_all (value.symm ▸ within), value]

/-- No character comes next that could belong to a number. -/
def Stops (rest : Rest) : Prop :=
  ∀ c ∈ rest.head?, isDigit c = false ∧ c ≠ '.' ∧ c ≠ 'e' ∧ c ≠ 'E'

theorem stops_nil : Stops [] := nofun

theorem Stops.digit (stops : Stops rest) : startsWithDigit rest = false := by
  cases rest with
  | nil => rfl
  | cons c cs => exact (stops c rfl).1

theorem Stops.fraction (stops : Stops rest) (m : Numeral) : scanFraction m rest = .ok (m, rest) := by
  cases rest with
  | nil => rfl
  | cons c cs =>
    obtain ⟨-, point, small, capital⟩ := stops c rfl
    simp [scanFraction, scanPower, point, small, capital]

theorem takeWhile_digits (all : ∀ c ∈ cs, isDigit c = true) (stops : Stops rest) :
    (cs ++ rest).takeWhile isDigit = cs ∧ (cs ++ rest).dropWhile isDigit = rest := by
  have none_more : rest.takeWhile isDigit = [] ∧ rest.dropWhile isDigit = rest := by
    cases rest with
    | nil => exact ⟨rfl, rfl⟩
    | cons c cs => simp [(stops c rfl).1]
  rw [List.takeWhile_append_of_pos all, List.dropWhile_append_of_pos all, none_more.1, none_more.2]
  exact ⟨List.append_nil cs, rfl⟩

theorem scanWhole_toDigits (negative : Bool) (n : Nat) (stops : Stops rest) :
    scanWhole negative (Nat.toDigits 10 n ++ rest) =
      .ok (⟨negative, Nat.toDigits 10 n, [], none⟩, rest) := by
  rcases Nat.eq_zero_or_pos n with rfl | positive
  · rw [Nat.toDigits_zero, List.singleton_append, scanWhole, stops.digit]
    exact stops.fraction _
  · obtain ⟨c, cs, eq, front⟩ := toDigits_front positive
    have all : ∀ d ∈ c :: cs, isDigit d = true := fun d mem => isDigit_of_mem (n := n) (eq ▸ mem)
    obtain ⟨taken, left⟩ := takeWhile_digits all stops
    rw [eq, scanWhole]
    · rw [taken, left, List.cons_append, startsWithDigit, all c List.mem_cons_self]
      exact stops.fraction _
    · rintro cs' same
      exact front (List.cons.inj same).1

/-- The integers that fit 64 bits, with a sign or without. -/
def Fits (i : Int) : Prop := -0x8000000000000000 ≤ i ∧ i < 0x10000000000000000

theorem fits_natCast (within : n < 0x10000000000000000) : Fits n := ⟨by omega, by omega⟩

theorem scanNumeral_writeInteger (i : Int) (stops : Stops rest) :
    scanNumeral (writeInteger i ++ rest) =
      .ok (⟨decide (i < 0), Nat.toDigits 10 i.natAbs, [], none⟩, rest) := by
  by_cases negative : i < 0
  · rw [writeInteger, if_pos negative, decide_eq_true negative, List.cons_append, scanNumeral]
    exact scanWhole_toDigits true _ stops
  · rw [writeInteger, if_neg negative, decide_eq_false negative, scanNumeral]
    · exact scanWhole_toDigits false _ stops
    · intro cs minus
      obtain ⟨d, ds, eq⟩ :=
        List.exists_cons_of_ne_nil (Nat.toDigits_ne_nil (n := i.natAbs) (b := 10))
      rw [eq, List.cons_append] at minus
      obtain ⟨rfl, -⟩ := List.cons.inj minus
      have digit : isDigit '-' = true := isDigit_of_mem (n := i.natAbs) (eq ▸ List.mem_cons_self)
      cases digit

theorem number_writeInteger {i : Int} (fits : Fits i) (after : Rest) :
    Numeral.number ⟨decide (i < 0), Nat.toDigits 10 i.natAbs, [], none⟩ after =
      .ok (.integer i) := by
  obtain ⟨low, high⟩ := fits
  have whole : Numeral.absorb (UInt64.size - 1) 0 (Nat.toDigits 10 i.natAbs) = (i.natAbs, []) := by
    refine absorb_toDigits ?_
    rw [UInt64.size]
    omega
  rw [Numeral.number, Numeral.toNumber]
  simp only [whole]
  by_cases negative : i < 0
  · have size : 0 < i.natAbs ∧ i.natAbs ≤ 0x8000000000000000 := by omega
    have value : -(i.natAbs : Int) = i := by omega
    simp only [negative, decide_true, if_pos size, value, Bool.true_eq_false, if_false]
  · have value : (i.natAbs : Int) = i := by omega
    simp [negative, value]

theorem hexValue_digitChar : ∀ d < 16, hexValue? d.digitChar = some d := by decide

theorem utf8Size_digitChar : ∀ d < 16, d.digitChar.utf8Size = 1 := by decide

theorem scanUnit_control (control : c.toNat < 0x20) :
    scanUnit ('0' :: '0' :: (c.toNat / 16).digitChar :: (c.toNat % 16).digitChar :: rest) =
      .ok (.character c rest) := by
  have high := hexValue_digitChar (c.toNat / 16) (by omega)
  have low := hexValue_digitChar (c.toNat % 16) (by omega)
  have zero : hexValue? '0' = some 0 := rfl
  have bytes : Rest.bytes ['0', '0', (c.toNat / 16).digitChar, (c.toNat % 16).digitChar] = 4 := by
    rw [Rest.bytes]
    simp [utf8Size_digitChar (c.toNat / 16) (by omega), utf8Size_digitChar (c.toNat % 16) (by omega)]
    rfl
  have value : c.toNat / 16 * 16 + c.toNat % 16 = c.toNat := by omega
  have plain : isLowSurrogate c.toNat = false ∧ isHighSurrogate c.toNat = false := by
    simp only [isLowSurrogate, isHighSurrogate, Bool.and_eq_false_iff, decide_eq_false_iff_not]
    omega
  rw [scanUnit, scanHex]
  simp [bytes, high, low, zero, value, plain]

/-- What was written for a character is one step of the reader. -/
theorem scanString_escaped (read : List Char) (c : Char) :
    scanString (fuel + 1) read none (escaped c ++ rest) = scanString fuel (c :: read) none rest := by
  -- One case for each way of writing a character: with a letter, with its number, or as it is.
  rw [escaped]
  split_ifs with quote slash line ret tab back feed control
  · subst quote
    simp [scanString, scanEscape]
  · subst slash
    simp [scanString, scanEscape]
  · subst line
    simp [scanString, scanEscape]
  · subst ret
    simp [scanString, scanEscape]
  · subst tab
    simp [scanString, scanEscape]
  · subst back
    simp [scanString, scanEscape]
  · subst feed
    simp [scanString, scanEscape]
  · simp [scanString, scanEscape, scanUnit_control control]
  · simp [scanString, quote, slash, control]

theorem scanString_write (read cs : List Char) (enough : cs.length < fuel) :
    scanString fuel read none (cs.flatMap escaped ++ '"' :: rest) =
      .ok (.ok (String.ofList (read.reverse ++ cs)), rest) := by
  induction cs generalizing read fuel with
  | nil =>
    obtain ⟨fuel, rfl⟩ := Nat.exists_eq_succ_of_ne_zero (Nat.ne_of_gt enough)
    simp [scanString, flawed]
  | cons c cs ih =>
    obtain ⟨fuel, rfl⟩ := Nat.exists_eq_succ_of_ne_zero (Nat.ne_of_gt (Nat.zero_lt_of_lt enough))
    rw [List.flatMap_cons, List.append_assoc, scanString_escaped,
      ih (c :: read) (Nat.lt_of_succ_lt_succ enough)]
    simp

theorem escaped_ne_nil (c : Char) : escaped c ≠ [] := by
  rw [escaped]
  split_ifs <;> exact List.cons_ne_nil _ _

theorem readString_write (text : String) (enough : (writeString text).length ≤ size) :
    readString size (text.toList.flatMap escaped ++ '"' :: rest) = .ok (.ok text, rest) := by
  have shorter := length_le_flatMap escaped_ne_nil text.toList
  rw [writeString, List.length_append, List.length_cons] at enough
  rw [readString, scanString_write]
  · simp
  · omega

end SessionCourier.Json
