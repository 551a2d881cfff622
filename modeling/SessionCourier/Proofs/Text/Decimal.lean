import SessionCourier.Text.Decimal

set_option autoImplicit false

namespace SessionCourier.Decimal

variable {bound acc n : Nat} {c : Char} {cs : List Char}

/-- One or more digits after at most one plus sign, and their value. -/
def Denotes (text : List Char) (n : Nat) : Prop :=
  ∃ digits, (text = digits ∨ text = '+' :: digits) ∧ digits ≠ [] ∧
    (∀ c ∈ digits, c.isDigit = true) ∧ n = Nat.ofDigitChars 10 digits 0

theorem digit_eq (c : Char) :
    digit? c = if c.isDigit = true then some (c.toNat - '0'.toNat) else none := by
  have range : ('0' ≤ c ∧ c ≤ '9') ↔ c.isDigit = true := by
    rw [Char.isDigit, Bool.and_eq_true, decide_eq_true_iff, decide_eq_true_iff]
    exact Iff.rfl
  rw [digit?]
  split
  · rename_i digit
    rw [if_pos (range.mp digit)]
  · rename_i other
    rw [if_neg (mt range.mpr other)]

theorem le_ofDigitChars (digits : List Char) (acc : Nat) :
    acc ≤ Nat.ofDigitChars 10 digits acc := by
  induction digits generalizing acc with
  | nil => simp
  | cons c cs ih =>
    rw [Nat.ofDigitChars_cons]
    have := ih (10 * acc + (c.toNat - '0'.toNat))
    omega

theorem readDigits_iff (within : acc ≤ bound) :
    readDigits bound acc cs = .ok n ↔
      (∀ c ∈ cs, c.isDigit = true) ∧ n = Nat.ofDigitChars 10 cs acc ∧ n ≤ bound := by
  induction cs generalizing acc with
  | nil =>
    rw [readDigits, Except.ok.injEq, Nat.ofDigitChars_nil]
    constructor
    · rintro rfl
      exact ⟨nofun, rfl, within⟩
    · rintro ⟨-, rfl, -⟩
      rfl
  | cons c cs ih =>
    have next : acc * 10 + (c.toNat - '0'.toNat) = 10 * acc + (c.toNat - '0'.toNat) := by
      rw [Nat.mul_comm]
    rw [readDigits, digit_eq, Nat.ofDigitChars_cons, List.forall_mem_cons]
    by_cases digit : c.isDigit = true
    · rw [if_pos digit]
      by_cases fits : acc * 10 + (c.toNat - '0'.toNat) ≤ bound
      · simp only [if_pos fits, ih fits, digit, true_and]
        rw [next]
      · simp only [if_neg fits]
        constructor
        · intro read
          cases read
        · rintro ⟨-, value, small⟩
          -- The value can only grow, so it passes the bound in the end too.
          rw [next] at fits
          exact absurd (Nat.le_trans (le_ofDigitChars cs _) (value ▸ small)) fits
    · rw [if_neg digit]
      constructor
      · intro read
        cases read
      · intro other
        exact absurd other.1.1 digit

theorem denotes_nil : ¬Denotes [] n := by
  rintro ⟨digits, rfl | sign, some, -⟩
  · exact some rfl
  · cases sign

theorem denotes_signed :
    Denotes ('+' :: cs) n ↔
      cs ≠ [] ∧ (∀ c ∈ cs, c.isDigit = true) ∧ n = Nat.ofDigitChars 10 cs 0 := by
  constructor
  · rintro ⟨digits, rfl | sign, some, all, value⟩
    · exact absurd (all '+' List.mem_cons_self) (by decide)
    · cases sign
      exact ⟨some, all, value⟩
  · rintro ⟨some, all, value⟩
    exact ⟨cs, .inr rfl, some, all, value⟩

theorem denotes_unsigned (unsigned : c ≠ '+') :
    Denotes (c :: cs) n ↔
      (∀ d ∈ c :: cs, d.isDigit = true) ∧ n = Nat.ofDigitChars 10 (c :: cs) 0 := by
  constructor
  · rintro ⟨digits, rfl | sign, some, all, value⟩
    · exact ⟨all, value⟩
    · cases sign
      exact absurd rfl unsigned
  · rintro ⟨all, value⟩
    exact ⟨c :: cs, .inl rfl, List.cons_ne_nil c cs, all, value⟩

theorem denotes_render (n : Nat) : Denotes (render n).toList n := by
  rw [render, String.toList_ofList]
  exact ⟨Nat.toDigits 10 n, .inl rfl, Nat.toDigits_ne_nil,
    fun c mem => Nat.isDigit_of_mem_toDigits (by decide) (by decide) mem,
    Nat.ofDigitChars_ten_toDigits.symm⟩

theorem mem_of_denotes (denotes : Denotes cs n) (mem : c ∈ cs) : c = '+' ∨ c.isDigit = true := by
  obtain ⟨digits, rfl | rfl, -, all, -⟩ := denotes
  · exact .inr (all c mem)
  · exact (List.mem_cons.mp mem).imp_right (all c)

theorem read_iff : read bound cs = .ok n ↔ Denotes cs n ∧ n ≤ bound := by
  rcases cs with - | ⟨c, cs⟩
  · refine iff_of_false (fun read => ?_) fun other => denotes_nil other.1
    cases read
  by_cases signed : c = '+'
  · subst signed
    rw [denotes_signed]
    rcases cs with - | ⟨d, ds⟩
    · refine iff_of_false (fun read => ?_) fun other => other.1.1 rfl
      cases read
    · rw [read, readDigits_iff (Nat.zero_le bound), and_assoc, and_assoc,
        and_iff_right (List.cons_ne_nil d ds)]
      exact List.cons_ne_nil d ds
  · rw [read, denotes_unsigned signed, readDigits_iff (Nat.zero_le bound), and_assoc]
    all_goals simp [signed]

theorem readRange_iff {text : String} {low high w : UInt64} :
    readRange text low high = some w ↔ Denotes text.toList w.toNat ∧ low ≤ w ∧ w ≤ high := by
  rw [readRange, UInt64.le_iff_toNat_le, UInt64.le_iff_toNat_le]
  have small : w.toNat ≤ UInt64.size - 1 := Nat.le_sub_one_of_lt w.toNat_lt
  constructor
  · intro given
    cases number : read (UInt64.size - 1) text.toList with
    | error refusal =>
      rw [number] at given
      cases given
    | ok n =>
      obtain ⟨denotes, fits⟩ := read_iff.1 number
      rw [number] at given
      dsimp only at given
      split at given
      · obtain rfl : UInt64.ofNat n = w := Option.some.inj given
        have exact : (UInt64.ofNat n).toNat = n :=
          UInt64.toNat_ofNat_of_lt (Nat.lt_of_le_pred (by decide) fits)
        rw [exact]
        exact ⟨denotes, ‹_›⟩
      · cases given
  · rintro ⟨denotes, range⟩
    rw [read_iff.2 ⟨denotes, small⟩]
    dsimp only
    rw [if_pos range, UInt64.ofNat_toNat]

end SessionCourier.Decimal
