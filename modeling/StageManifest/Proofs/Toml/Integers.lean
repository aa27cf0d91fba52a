import Mathlib.Data.List.TakeWhile
import StageManifest.Proofs.Text.Digits
import StageManifest.Toml.Printer
import StageManifest.Toml.Scalar

/-!
# Reading written integers

An integer is written with a dash if it is negative and then with decimal digits,
the first of which is a zero only if it is the one digit.  Such a text starts no
truth value, date, point or exponent, and so it is read as that integer, up to the
end of its line (`Toml.readScalar?_repr`).
-/

set_option autoImplicit false

namespace StageManifest.Toml

variable {number : Nat} {rest : List Char}

/-! ## Digits -/

theorem isDigit_of_mem_toDigits {digit : Char} (member : digit ∈ Nat.toDigits 10 number) :
    digit.isDigit = true :=
  Nat.isDigit_of_mem_toDigits (by decide) (by decide) member

/-- A zero at the start of a number is its one digit. -/
theorem eq_nil_of_toDigits_eq_zero_cons (starts : Nat.toDigits 10 number = '0' :: rest) :
    rest = [] := by
  induction number using Nat.strongRecOn generalizing rest with
  | ind number ih =>
    by_cases small : number < 10
    · rw [Nat.toDigits_of_lt_base small] at starts
      exact (List.cons.inj starts).2.symm
    · rw [Nat.toDigits_eq_if (by decide), if_neg small] at starts
      have nonempty : Nat.toDigits 10 (number / 10) ≠ [] := Nat.toDigits_ne_nil
      obtain ⟨first, more, front⟩ := List.exists_cons_of_ne_nil nonempty
      rw [front, List.cons_append] at starts
      obtain ⟨rfl, -⟩ := List.cons.inj starts
      -- What stands before the last digit would be a zero, too.
      have single := ih (number / 10) (Nat.div_lt_self (by omega) (by decide)) front
      have value : Nat.ofDigitChars 10 (Nat.toDigits 10 (number / 10)) 0 = number / 10 :=
        Nat.ofDigitChars_ten_toDigits
      rw [front, single] at value
      have isZero : number / 10 = 0 := value.symm
      omega

theorem ungroup_of_isDigit {digits : List Char} (nonempty : digits ≠ [])
    (areDigits : ∀ digit ∈ digits, digit.isDigit = true) :
    ungroup Char.isDigit digits = some digits := by
  induction digits with
  | nil => exact absurd rfl nonempty
  | cons digit rest ih =>
      obtain ⟨isDigit, others⟩ := List.forall_mem_cons.mp areDigits
      cases rest with
      | nil => rw [ungroup, if_pos isDigit]
      | cons next more =>
          have notMark : next ≠ '_' := by
            rintro rfl
            exact absurd (others '_' List.mem_cons_self) (by decide)
          rw [ungroup, if_pos isDigit, ih (List.cons_ne_nil _ _) others, Option.map_some]
          exact fun _ _ same => absurd same notMark

/-- The digits of a number are those of a decimal whole part. -/
theorem wholeDigits?_toDigits (number : Nat) :
    wholeDigits? (Nat.toDigits 10 number) = some (Nat.toDigits 10 number) := by
  unfold wholeDigits?
  split
  next single => rw [single]
  next notSingle starts =>
    exact absurd (eq_nil_of_toDigits_eq_zero_cons starts) (by simpa using notSingle)
  next => exact ungroup_of_isDigit Nat.toDigits_ne_nil fun _ => isDigit_of_mem_toDigits

/-! ## Integers -/

theorem toList_repr_natural (number : Nat) : number.repr.toList = Nat.toDigits 10 number := by
  rw [Nat.repr_eq_ofList_toDigits, String.toList_ofList]

/-- The text of an integer: a dash, if it is negative, and digits. -/
theorem toList_repr (integer : Int) :
    integer.repr.toList =
      (if integer < 0 then ['-'] else []) ++ Nat.toDigits 10 integer.natAbs := by
  cases integer with
  | ofNat number =>
      rw [if_neg (by simp), Int.repr, toList_repr_natural]
      rfl
  | negSucc number =>
      rw [if_pos (Int.negSucc_lt_zero number), Int.repr, String.toList_append, toList_repr_natural]
      rfl

theorem readSign_toDigits (number : Nat) :
    readSign (Nat.toDigits 10 number) = (false, Nat.toDigits 10 number) := by
  unfold readSign
  split
  next starts => exact absurd (isDigit_of_mem_toDigits (starts ▸ List.mem_cons_self)) (by decide)
  next starts => exact absurd (isDigit_of_mem_toDigits (starts ▸ List.mem_cons_self)) (by decide)
  next => rfl

theorem readSign_repr (integer : Int) :
    readSign integer.repr.toList = (decide (integer < 0), Nat.toDigits 10 integer.natAbs) := by
  rw [toList_repr]
  by_cases negative : integer < 0
  · rw [if_pos negative, decide_eq_true negative]
    rfl
  · rw [if_neg negative, decide_eq_false negative, List.nil_append, readSign_toDigits]

/-- The text of an integer starts with a dash or a digit. -/
theorem exists_head_repr (integer : Int) :
    ∃ first rest, integer.repr.toList = first :: rest ∧ (first = '-' ∨ first.isDigit = true) ∧
      ∀ character ∈ rest, character.isDigit = true := by
  rw [toList_repr]
  by_cases negative : integer < 0
  · rw [if_pos negative]
    exact ⟨'-', _, rfl, .inl rfl, fun _ => isDigit_of_mem_toDigits⟩
  · rw [if_neg negative, List.nil_append]
    have nonempty : Nat.toDigits 10 integer.natAbs ≠ [] := Nat.toDigits_ne_nil
    obtain ⟨first, rest, starts⟩ := List.exists_cons_of_ne_nil nonempty
    rw [starts]
    refine ⟨first, rest, rfl, .inr ?_, fun character member => ?_⟩
    · exact isDigit_of_mem_toDigits (starts ▸ List.mem_cons_self)
    · exact isDigit_of_mem_toDigits (starts ▸ List.mem_cons_of_mem _ member)

theorem isScalarCharacter_of_isDigit {character : Char} (isDigit : character.isDigit = true) :
    isScalarCharacter character = true := by
  simp [isScalarCharacter, Char.isAlphanum, isDigit]

theorem isScalarCharacter_of_mem_repr {integer : Int} {character : Char}
    (member : character ∈ integer.repr.toList) : isScalarCharacter character = true := by
  obtain ⟨first, rest, text, starts, digits⟩ := exists_head_repr integer
  rw [text] at member
  rcases List.mem_cons.mp member with rfl | isDigit
  · rcases starts with rfl | isDigit
    · rfl
    · exact isScalarCharacter_of_isDigit isDigit
  · exact isScalarCharacter_of_isDigit (digits character isDigit)

/-! ## What the text of an integer is not -/

/-- A date or time has a mark behind its first digits. -/
theorem dateTime_ofText?_repr (integer : Int) : DateTime.ofText? integer.repr.toList = none := by
  rw [toList_repr, DateTime.ofText?, DateTime.read, readDigits]
  by_cases negative : integer < 0
  · rw [if_pos negative]
    rfl
  · have digits : ∀ digit ∈ Nat.toDigits 10 integer.natAbs, digit.isDigit = true :=
      fun _ => isDigit_of_mem_toDigits
    rw [if_neg negative, List.nil_append, List.takeWhile_eq_self_iff.mpr digits,
      List.dropWhile_eq_nil_iff.mpr digits]
    simp only [List.isEmpty_eq_false_iff.mpr Nat.toDigits_ne_nil]
    rfl

/-- A word with a letter is no number. -/
theorem toDigits_ne_of_mem {letter : Char} {word : List Char} (member : letter ∈ word)
    (notDigit : letter.isDigit = false) : Nat.toDigits 10 number ≠ word := by
  rintro rfl
  exact Bool.false_ne_true (notDigit.symm.trans (isDigit_of_mem_toDigits member))

theorem repr_ne_of_mem {integer : Int} {letter : Char} {word : List Char} (member : letter ∈ word)
    (notDigit : letter.isDigit = false) (notSign : letter ≠ '-') :
    integer.repr.toList ≠ word := by
  rintro rfl
  obtain ⟨first, rest, text, starts, digits⟩ := exists_head_repr integer
  rw [text] at member
  rcases List.mem_cons.mp member with rfl | isMore
  · exact starts.elim notSign (Bool.false_ne_true ∘ notDigit.symm.trans)
  · exact Bool.false_ne_true (notDigit.symm.trans (digits letter isMore))

/-- A number of another kind has a point or an exponent. -/
theorem floatOf?_repr (integer : Int) : floatOf? integer.repr.toList = none := by
  have notMark : ∀ digit ∈ Nat.toDigits 10 integer.natAbs,
      (!(digit == 'e' || digit == 'E')) = true := by
    intro digit member
    have isDigit := isDigit_of_mem_toDigits member
    rw [Bool.not_eq_true', Bool.or_eq_false_iff, beq_eq_false_iff_ne, beq_eq_false_iff_ne]
    constructor <;> rintro rfl <;> cases isDigit
  have notPoint : ∀ digit ∈ Nat.toDigits 10 integer.natAbs, (digit != '.') = true := by
    intro digit member
    have isDigit := isDigit_of_mem_toDigits member
    rw [bne_iff_ne]
    rintro rfl
    cases isDigit
  have notInfinite : Nat.toDigits 10 integer.natAbs ≠ "inf".toList :=
    toDigits_ne_of_mem (by decide : 'n' ∈ "inf".toList) rfl
  have notNan : Nat.toDigits 10 integer.natAbs ≠ "nan".toList :=
    toDigits_ne_of_mem (by decide : 'n' ∈ "nan".toList) rfl
  rw [floatOf?, readSign_repr]
  simp only
  rw [if_neg notInfinite, if_neg notNan, List.takeWhile_eq_self_iff.mpr notMark,
    List.dropWhile_eq_nil_iff.mpr notMark, List.takeWhile_eq_self_iff.mpr notPoint,
    List.dropWhile_eq_nil_iff.mpr notPoint, wholeDigits?_toDigits]
  rfl

/-! ## Reading -/

theorem int64?_toInt (integer : Int64) : int64? integer.toInt = some integer := by
  have atLeast := integer.le_toInt
  have below := integer.toInt_lt
  rw [int64?, if_pos, Int64.ofInt_toInt]
  rw [Bool.and_eq_true, decide_eq_true_eq, decide_eq_true_eq]
  omega

/-- A whole number of 64 bits is read from its digits. -/
theorem integerOf?_repr (integer : Int64) :
    integerOf? integer.toInt.repr.toList = some integer := by
  obtain ⟨first, rest, text, starts, digits⟩ := exists_head_repr integer.toInt
  have sign := readSign_repr integer.toInt
  have value : (if integer.toInt < 0 then -(integer.toInt.natAbs : Int) else integer.toInt.natAbs) =
      integer.toInt := by
    split <;> omega
  rw [text] at sign ⊢
  unfold integerOf?
  split
  next same => exact absurd (digits 'x' (by simp_all)) (by decide)
  next same => exact absurd (digits 'o' (by simp_all)) (by decide)
  next same => exact absurd (digits 'b' (by simp_all)) (by decide)
  next =>
    have read := Text.digitsValue_toDigits (by decide : 1 < 10) (by decide : 10 ≤ 16)
    rw [sign]
    simp only [wholeDigits?_toDigits, read, Option.bind_eq_bind, Option.bind_some,
      decide_eq_true_eq, value, int64?_toInt]

theorem scalarOf?_repr (integer : Int64) :
    scalarOf? integer.toInt.repr.toList = some (.integer integer) := by
  have notTrue : integer.toInt.repr.toList ≠ "true".toList :=
    repr_ne_of_mem (by decide : 't' ∈ "true".toList) rfl (by decide)
  have notFalse : integer.toInt.repr.toList ≠ "false".toList :=
    repr_ne_of_mem (by decide : 'f' ∈ "false".toList) rfl (by decide)
  rw [scalarOf?, if_neg notTrue, if_neg notFalse, dateTime_ofText?_repr, floatOf?_repr]
  simp only [integerOf?_repr, Option.map_some]

/-- **The text of an integer is read as the integer**, up to the end of its line. -/
theorem readScalar?_repr (integer : Int64) (rest : List Char) :
    readScalar? (integer.toInt.repr.toList ++ '\n' :: rest) =
      some (.integer integer, '\n' :: rest) := by
  have within : ∀ character ∈ integer.toInt.repr.toList, isScalarCharacter character = true :=
    fun _ => isScalarCharacter_of_mem_repr
  have lineFeed : isScalarCharacter '\n' = false := rfl
  have run : (integer.toInt.repr.toList ++ '\n' :: rest).takeWhile isScalarCharacter =
      integer.toInt.repr.toList := by
    rw [List.takeWhile_append_of_pos within, List.takeWhile_cons_of_neg (by simp [lineFeed]),
      List.append_nil]
  have left : (integer.toInt.repr.toList ++ '\n' :: rest).dropWhile isScalarCharacter =
      '\n' :: rest := by
    rw [List.dropWhile_append_of_pos within, List.dropWhile_cons_of_neg (by simp [lineFeed])]
  have noTime (date : List Char) : readSpacedTime date ('\n' :: rest) = (date, '\n' :: rest) := rfl
  rw [readScalar?, run, left, noTime]
  simp only [scalarOf?_repr, Option.map_some]

end StageManifest.Toml
