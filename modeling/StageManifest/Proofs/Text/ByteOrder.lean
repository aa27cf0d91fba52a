import StageManifest.Text.Utf8

/-!
# The order of bytes

Text is ordered by its code points.  Comparing the bytes in UTF-8 gives the same order
(`Text.encode_lt_encode_iff`): of two characters the lesser one has the lesser bytes, whatever
follows them, since a character of more bytes starts with a greater one and characters of
equally many bytes are written with the high bits first.
-/

set_option autoImplicit false

namespace StageManifest.Text

theorem byte_cons_lt_iff {first second : Nat} {rest other : List UInt8} (small : first < 256)
    (smallOther : second < 256) :
    UInt8.ofNat first :: rest < UInt8.ofNat second :: other ↔
      first < second ∨ first = second ∧ rest < other := by
  rw [List.cons_lt_cons_iff, UInt8.lt_iff_toNat_lt, ← UInt8.toNat_inj,
    UInt8.toNat_ofNat_of_lt' small, UInt8.toNat_ofNat_of_lt' smallOther]

/-- The lesser of two characters has the lesser bytes, whatever follows. -/
theorem utf8EncodeChar_append_lt {first second : Char} (less : first < second)
    (rest other : List UInt8) :
    String.utf8EncodeChar first ++ rest < String.utf8EncodeChar second ++ other := by
  have codes : first.val.toNat < second.val.toNat := less
  have range : second.val.toNat < 0xD800 ∨
    0xDFFF < second.val.toNat ∧ second.val.toNat < 0x110000 := second.valid
  rw [String.utf8EncodeChar, String.utf8EncodeChar]
  generalize first.val.toNat = low at codes
  generalize second.val.toNat = high at codes range
  -- The digits of a code to the base 64, each from the one before.
  have digits (code : Nat) :
      code / 262144 = code / 64 / 64 / 64 ∧ code / 4096 = code / 64 / 64 := by omega
  simp only [digits]
  repeat' split
  all_goals
    simp only [List.cons_append, List.nil_append]
    repeat rw [byte_cons_lt_iff (by omega) (by omega)]
    omega

theorem flatMap_utf8EncodeChar_lt {first second : List Char} (less : first < second) :
    first.flatMap String.utf8EncodeChar < second.flatMap String.utf8EncodeChar := by
  induction first generalizing second with
  | nil =>
      cases second with
      | nil => exact absurd less (List.not_lt_nil _)
      | cons character rest =>
          have nonempty : String.utf8EncodeChar character ≠ [] := String.utf8EncodeChar_ne_nil
          obtain ⟨byte, bytes, same⟩ := List.exists_cons_of_ne_nil nonempty
          rw [List.flatMap_nil, List.flatMap_cons, same, List.cons_append]
          exact List.nil_lt_cons byte _
  | cons character rest ih =>
      cases second with
      | nil => exact absurd less (List.not_lt_nil _)
      | cons other others =>
          rw [List.flatMap_cons, List.flatMap_cons]
          rcases List.cons_lt_cons_iff.mp less with before | ⟨rfl, before⟩
          · exact utf8EncodeChar_append_lt before _ _
          · exact List.append_left_lt (ih before)

/-- **The order of texts is the order of their bytes.** -/
theorem encode_lt_encode_iff {first second : String} :
    encode first < encode second ↔ first < second := by
  have keeps {first second : String} (less : first < second) : encode first < encode second :=
    flatMap_utf8EncodeChar_lt (String.lt_iff.mp less)
  constructor
  · intro less
    refine Decidable.byContradiction fun notLess => ?_
    have notGreater : ¬ second < first := fun greater => List.lt_asymm less (keeps greater)
    obtain rfl : first = second :=
      String.le_antisymm (String.not_lt.mp notGreater) (String.not_lt.mp notLess)
    exact List.lt_irrefl _ less
  · exact keeps

theorem encode_le_encode_iff {first second : String} :
    encode first ≤ encode second ↔ first ≤ second := by
  rw [← String.not_lt, ← encode_lt_encode_iff, List.not_lt]

/-- The texts come in the order of their bytes, repetitions allowed. -/
def InByteOrder (texts : List String) : Prop :=
  texts.Pairwise fun first second => encode first ≤ encode second

theorem inByteOrder_iff {texts : List String} :
    InByteOrder texts ↔ texts.Pairwise fun first second => first ≤ second := by
  rw [InByteOrder]
  simp only [encode_le_encode_iff]

end StageManifest.Text
