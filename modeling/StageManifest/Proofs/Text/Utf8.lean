import StageManifest.Text.Utf8

/-!
# Reading written text

The bytes of a text are read as that text (`Text.decode?_encode`).  A character
takes one to four bytes, and after its last one the next character starts
(`Text.readExactly_encode`).
-/

set_option autoImplicit false

namespace StageManifest.Text

/-- A byte between the bounds that ends a character. -/
theorem readExactly_last {bits least greatest code : Nat} {rest : List UInt8}
    (small : code < 256) (above : least ≤ code) (below : code ≤ greatest) :
    readExactly (some ⟨bits, 0, least, greatest⟩) (UInt8.ofNat code :: rest) =
      (readExactly none rest).map (Char.ofNat (bits * 64 + (code - 0x80)) :: ·) := by
  simp [readExactly, OpenCharacter.advance, UInt8.toNat_ofNat_of_lt' small, above, below]

/-- A byte between the bounds after which more are owed. -/
theorem readExactly_more {bits owed least greatest code : Nat} {rest : List UInt8}
    (small : code < 256) (above : least ≤ code) (below : code ≤ greatest) :
    readExactly (some ⟨bits, owed + 1, least, greatest⟩) (UInt8.ofNat code :: rest) =
      readExactly (some ⟨bits * 64 + (code - 0x80), owed, 0x80, 0xBF⟩) rest := by
  simp [readExactly, OpenCharacter.advance, UInt8.toNat_ofNat_of_lt' small, above, below]

/-- A byte that starts a character of several bytes. -/
theorem readExactly_first {code : Nat} {pending : OpenCharacter} {rest : List UInt8}
    (small : code < 256) (starts : startCharacter code = .continues pending) :
    readExactly none (UInt8.ofNat code :: rest) = readExactly (some pending) rest := by
  simp [readExactly, UInt8.toNat_ofNat_of_lt' small, starts]

/-- The first of two bytes holds what is left of the code without its last six bits. -/
theorem startCharacter_two {code : Nat} (above : 0x7F < code) (below : code ≤ 0x7FF) :
    startCharacter (code / 64 % 32 + 192) = .continues ⟨code / 64, 0, 0x80, 0xBF⟩ := by
  have lead : code / 64 % 32 + 192 - 0xC0 = code / 64 := by omega
  rw [startCharacter]
  simp only [Bool.and_eq_true, decide_eq_true_eq]
  rw [if_neg (by omega), if_pos (by omega), lead]

theorem startCharacter_three {code : Nat} (above : 0x7FF < code) (below : code ≤ 0xFFFF)
    (whole : code < 0xD800 ∨ 0xDFFF < code) :
    ∃ least greatest, least ≤ code / 64 % 64 + 128 ∧ code / 64 % 64 + 128 ≤ greatest ∧
      startCharacter (code / 4096 % 16 + 224) = .continues ⟨code / 4096, 1, least, greatest⟩ := by
  have lead : code / 4096 % 16 + 224 = code / 4096 + 0xE0 := by omega
  rw [lead, startCharacter]
  simp only [Bool.and_eq_true, decide_eq_true_eq]
  rw [if_neg (by omega), if_neg (by omega)]
  split
  · exact ⟨0xA0, 0xBF, by omega, by omega, by simp; omega⟩
  split
  · exact ⟨0x80, 0x9F, by omega, by omega, by simp; omega⟩
  split
  · exact ⟨0x80, 0xBF, by omega, by omega, by rw [Nat.add_sub_cancel]⟩
  · omega

theorem startCharacter_four {code : Nat} (above : 0xFFFF < code) (below : code < 0x110000) :
    ∃ least greatest, least ≤ code / 4096 % 64 + 128 ∧ code / 4096 % 64 + 128 ≤ greatest ∧
      startCharacter (code / 262144 % 8 + 240) = .continues ⟨code / 262144, 2, least, greatest⟩ := by
  have lead : code / 262144 % 8 + 240 = code / 262144 + 0xF0 := by omega
  rw [lead, startCharacter]
  simp only [Bool.and_eq_true, decide_eq_true_eq]
  rw [if_neg (by omega), if_neg (by omega), if_neg (by omega), if_neg (by omega),
    if_neg (by omega)]
  split
  · exact ⟨0x90, 0xBF, by omega, by omega, by simp; omega⟩
  split
  · exact ⟨0x80, 0xBF, by omega, by omega, by rw [Nat.add_sub_cancel]⟩
  split
  · exact ⟨0x80, 0x8F, by omega, by omega, by simp; omega⟩
  · omega

/-- A character is read from its bytes, whatever follows. -/
theorem readExactly_encode (character : Char) (rest : List UInt8) :
    readExactly none (String.utf8EncodeChar character ++ rest) =
      (readExactly none rest).map (character :: ·) := by
  have range : character.val.toNat < 0xD800 ∨
    0xDFFF < character.val.toNat ∧ character.val.toNat < 0x110000 := character.valid
  have same : Char.ofNat character.val.toNat = character := Char.ofNat_toNat character
  rw [String.utf8EncodeChar]
  generalize character.val.toNat = code at range same
  split
  · have starts : startCharacter code = .complete (Char.ofNat code) := if_pos ‹_›
    have small : code < UInt8.size := Nat.lt_of_le_of_lt ‹_› (by decide)
    rw [List.singleton_append, readExactly, UInt8.toNat_ofNat_of_lt' small]
    simp only [starts, same]
  split
  · have whole : code / 64 * 64 + (code % 64 + 128 - 0x80) = code := by omega
    rw [List.cons_append, readExactly_first (by omega) (startCharacter_two (by omega) ‹_›),
      List.singleton_append, readExactly_last (by omega) (by omega) (by omega), whole, same]
  split
  · obtain ⟨least, greatest, atLeast, atMost, starts⟩ :=
      startCharacter_three (by omega) ‹code ≤ 0xFFFF› (by omega)
    have whole : (code / 4096 * 64 + (code / 64 % 64 + 128 - 0x80)) * 64 +
      (code % 64 + 128 - 0x80) = code := by omega
    rw [List.cons_append, readExactly_first (by omega) starts, List.cons_append,
      readExactly_more (by omega) atLeast atMost, List.singleton_append,
      readExactly_last (by omega) (by omega) (by omega), whole, same]
  · obtain ⟨least, greatest, atLeast, atMost, starts⟩ :=
      startCharacter_four (Nat.not_le.mp ‹¬ code ≤ 0xFFFF›) (by omega)
    have whole : ((code / 262144 * 64 + (code / 4096 % 64 + 128 - 0x80)) * 64 +
      (code / 64 % 64 + 128 - 0x80)) * 64 + (code % 64 + 128 - 0x80) = code := by omega
    rw [List.cons_append, readExactly_first (by omega) starts, List.cons_append,
      readExactly_more (by omega) atLeast atMost, List.cons_append,
      readExactly_more (by omega) (by omega) (by omega), List.singleton_append,
      readExactly_last (by omega) (by omega) (by omega), whole, same]

/-- **The bytes of a text are read as the text.** -/
theorem decode?_encode (text : String) : decode? (encode text) = some text := by
  have reads : ∀ characters : List Char,
      readExactly none (characters.flatMap String.utf8EncodeChar) = some characters := by
    intro characters
    induction characters with
    | nil => rfl
    | cons character rest ih => rw [List.flatMap_cons, readExactly_encode, ih, Option.map_some]
  rw [decode?, encode, reads, Option.map_some, String.ofList_toList]

end StageManifest.Text
