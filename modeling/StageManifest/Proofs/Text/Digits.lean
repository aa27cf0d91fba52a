import Mathlib.Data.List.Basic
import StageManifest.Text.Digits

/-!
# Numbers as digits

What is written with the digits of a base is read as the number again
(`digitsValue_toDigits`), also with zeros before them.  In the other direction, a
text is read as an unsigned decimal number exactly if it has at least one digit,
has nothing but digits and perhaps a plus sign before them, and the number is small
enough (`decimalBelow?_eq_some_iff`).
-/

set_option autoImplicit false

namespace StageManifest.Text

/-! ## Digits of a base -/

section

variable {base : Nat}

theorem digitValue?_digitChar (small : base ≤ 16) {value : Nat} (inside : value < base) :
    digitValue? base (Nat.digitChar value) = some value := by
  have hexadecimal : ∀ value < 16, digitValue? 16 (Nat.digitChar value) = some value := by decide
  have read := hexadecimal value (Nat.lt_of_lt_of_le inside small)
  simp only [digitValue?, Option.filter_eq_some_iff] at read ⊢
  exact ⟨read.1, decide_eq_true inside⟩

theorem digitsValue_append (start : Nat) (first second : List Char) :
    digitsValue base start (first ++ second) =
      (digitsValue base start first).bind fun value => digitsValue base value second := by
  induction first generalizing start with
  | nil => rfl
  | cons digit rest ih =>
      rw [List.cons_append, digitsValue, digitsValue]
      split
      · exact ih _
      · rfl

/-- **The digits of a number are read as the number.** -/
theorem digitsValue_toDigits (large : 1 < base) (small : base ≤ 16) (number : Nat) :
    digitsValue base 0 (Nat.toDigits base number) = some number := by
  induction number using Nat.strongRecOn with
  | ind number ih =>
    by_cases single : number < base
    · simp [Nat.toDigits_of_lt_base single, digitsValue, digitValue?_digitChar small single]
    · have positive : 0 < number := by omega
      have last : number % base < base := Nat.mod_lt _ (by omega)
      have whole : number / base * base + number % base = number := Nat.div_add_mod' number base
      rw [Nat.toDigits_eq_if large, if_neg single, digitsValue_append,
        ih (number / base) (Nat.div_lt_self positive large)]
      simp [digitsValue, digitValue?_digitChar small last, whole]

/-- Zeros before the digits change nothing. -/
theorem digitsValue_zeroPadded (large : 1 < base) (small : base ≤ 16) (width : Nat)
    (digits : List Char) :
    digitsValue base 0 (zeroPadded width digits) = digitsValue base 0 digits := by
  have positive : 0 < base := by omega
  have zero : digitValue? base '0' = some 0 := digitValue?_digitChar small positive
  rw [zeroPadded]
  induction width - digits.length with
  | zero => rfl
  | succ count ih =>
      rw [List.replicate_succ, List.cons_append, digitsValue, zero]
      simpa using ih

end

/-! ## Decimal digits -/

theorem digitValue?_of_isDigit {character : Char} (isDigit : character.isDigit = true) :
    digitValue? 10 character = some (character.toNat - '0'.toNat) := by
  obtain ⟨atLeast, atMost⟩ := Char.isDigit_iff_toNat.mp isDigit
  have between : ('0' ≤ character && character ≤ '9') = true := by
    rw [Bool.and_eq_true, decide_eq_true_eq, decide_eq_true_eq]
    exact ⟨atLeast, atMost⟩
  rw [digitValue?, if_pos between]
  have small : character.toNat - '0'.toNat < 10 :=
    Nat.lt_of_le_of_lt (Nat.sub_le_sub_right atMost _) (by decide)
  exact Option.filter_eq_some_iff.mpr ⟨rfl, decide_eq_true small⟩

theorem char_le_iff {first second : Char} : first ≤ second ↔ first.toNat ≤ second.toNat :=
  Iff.rfl

/-- The letters write values of at least ten. -/
theorem isDigit_of_digitValue? {character : Char} {value : Nat}
    (read : digitValue? 10 character = some value) : character.isDigit = true := by
  simp only [digitValue?, Option.filter_eq_some_iff, decide_eq_true_eq, Bool.and_eq_true,
    char_le_iff] at read
  obtain ⟨found, small⟩ := read
  rw [Char.isDigit_iff_toNat]
  split at found
  next between => exact between
  split at found
  next lower =>
    have atLeast : 97 ≤ character.toNat := lower.1
    cases found
    omega
  split at found
  next upper =>
    have atLeast : 65 ≤ character.toNat := upper.1
    cases found
    omega
  next => cases found

/-- **Digits are read as the number that they write**, and nothing else is read. -/
theorem digitsValue_eq_some_iff {digits : List Char} {start number : Nat} :
    digitsValue 10 start digits = some number ↔
      (∀ digit ∈ digits, digit.isDigit = true) ∧ Nat.ofDigitChars 10 digits start = number := by
  induction digits generalizing start with
  | nil => simp [digitsValue]
  | cons digit rest ih =>
      rw [digitsValue, List.forall_mem_cons, Nat.ofDigitChars_cons, Nat.mul_comm 10 start]
      split
      next value read =>
        have isDigit := isDigit_of_digitValue? read
        cases (digitValue?_of_isDigit isDigit).symm.trans read
        simp [ih, isDigit]
      next notRead =>
        have other : digit.isDigit = false := by
          rw [Bool.eq_false_iff]
          intro isDigit
          cases notRead.symm.trans (digitValue?_of_isDigit isDigit)
        simp [other]

/-- The text writes the number: with decimal digits, at least one of them, and perhaps with a plus
sign before these. -/
def WritesDecimal (text : List Char) (number : Nat) : Prop :=
  ∃ sign digits, text = sign ++ digits ∧ (sign = [] ∨ sign = ['+']) ∧ digits ≠ [] ∧
    (∀ digit ∈ digits, digit.isDigit = true) ∧ Nat.ofDigitChars 10 digits 0 = number

/-- **Unsigned decimal numbers below a limit are read, and nothing else.** -/
theorem decimalBelow?_eq_some_iff {limit : Nat} {text : List Char} {number : Nat} :
    decimalBelow? limit text = some number ↔ WritesDecimal text number ∧ number < limit := by
  -- What is read once the sign is gone.
  have unsigned : ∀ digits : List Char,
      (if digits.isEmpty then none else (digitsValue 10 0 digits).filter (· < limit)) =
          some number ↔
        (digits ≠ [] ∧ (∀ digit ∈ digits, digit.isDigit = true) ∧
          Nat.ofDigitChars 10 digits 0 = number) ∧ number < limit := by
    intro digits
    cases digits with
    | nil => simp
    | cons digit rest =>
        simp [Option.filter_eq_some_iff, digitsValue_eq_some_iff, and_assoc]
  unfold decimalBelow?
  rw [unsigned, WritesDecimal]
  refine and_congr_left fun _ => ?_
  split
  next rest =>
    refine ⟨fun written => ⟨['+'], rest, rfl, .inr rfl, written⟩, ?_⟩
    rintro ⟨sign, digits, same, rfl | rfl, written⟩
    · cases same
      exact absurd (written.2.1 '+' List.mem_cons_self) (by decide)
    · cases same
      exact written
  next notSigned =>
    refine ⟨fun written => ⟨[], text, rfl, .inl rfl, written⟩, ?_⟩
    rintro ⟨sign, digits, rfl, rfl | rfl, written⟩
    · exact written
    · exact absurd rfl (notSigned digits)

end StageManifest.Text
