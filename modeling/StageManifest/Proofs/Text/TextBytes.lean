import Mathlib.Tactic.Common
import StageManifest.HostPath
import StageManifest.Proofs.Text.Utf8

/-!
# Bytes that are a text

Bytes can be read exactly only if they are those of a text
(`Text.decode?_eq_some_iff`): the first byte of a character says how many bytes
it takes, and the bounds on the second one leave out what no character is
written with.  Nothing is replaced in such bytes (`Text.decodeLossy_encode`).

A path is a text if its bytes are.  Paths that are texts are told apart by what
is shown of them (`HostPath.IsText.eq_of_display_eq`); a path that is no text
is shown like another one.
-/

set_option autoImplicit false

namespace StageManifest

namespace Text

/-! ## One byte -/

/-- What a byte leads to, with a character possibly open before it. -/
def byteStep (pending : Option OpenCharacter) (byte : UInt8) : ByteStep :=
  pending.elim (startCharacter byte.toNat) (·.advance byte.toNat)

section

variable {pending : Option OpenCharacter} {byte : UInt8} {rest : List UInt8}

theorem readExactly_cons :
    readExactly pending (byte :: rest) =
      match byteStep pending byte with
      | .complete character => (readExactly none rest).map (character :: ·)
      | .continues next => readExactly (some next) rest
      | .refused => none := by
  cases pending <;> rfl

theorem readBytes_of_complete {character : Char}
    (step : byteStep pending byte = .complete character) :
    readBytes pending (byte :: rest) = character :: readBytes none rest := by
  cases pending with
  | none =>
      change startCharacter byte.toNat = _ at step
      simp [readBytes, readByte, step]
  | some unfinished =>
      change unfinished.advance byte.toNat = _ at step
      simp [readBytes, readByte, step]

theorem readBytes_of_continues {next : OpenCharacter}
    (step : byteStep pending byte = .continues next) :
    readBytes pending (byte :: rest) = readBytes (some next) rest := by
  cases pending with
  | none =>
      change startCharacter byte.toNat = _ at step
      simp [readBytes, readByte, step]
  | some unfinished =>
      change unfinished.advance byte.toNat = _ at step
      simp [readBytes, readByte, step]

end

/-- Nothing is replaced in bytes that can be read exactly. -/
theorem readBytes_of_readExactly {pending : Option OpenCharacter} {bytes : List UInt8}
    {characters : List Char} (exact : readExactly pending bytes = some characters) :
    readBytes pending bytes = characters := by
  induction bytes generalizing pending characters with
  | nil =>
      cases pending with
      | none => exact Option.some.inj exact
      | some unfinished => cases exact
  | cons byte rest ih =>
      rw [readExactly_cons] at exact
      split at exact
      next character step =>
        obtain ⟨others, further, rfl⟩ := Option.map_eq_some_iff.mp exact
        rw [readBytes_of_complete step, ih further]
      next following step =>
        rw [readBytes_of_continues step, ih exact]
      next => cases exact

/-! ## The bytes of one character -/

section

variable {bits owed least greatest : Nat} {bytes : List UInt8} {characters : List Char}

/-- A character of which one byte is owed is read from a byte between the bounds. -/
theorem exists_of_readExactly_last
    (reads : readExactly (some ⟨bits, 0, least, greatest⟩) bytes = some characters) :
    ∃ byte rest others, bytes = byte :: rest ∧ least ≤ byte.toNat ∧ byte.toNat ≤ greatest ∧
      characters = Char.ofNat (bits * 64 + (byte.toNat - 0x80)) :: others ∧
      readExactly none rest = some others := by
  cases bytes with
  | nil => cases reads
  | cons byte rest =>
      rw [readExactly_cons] at reads
      by_cases between : least ≤ byte.toNat ∧ byte.toNat ≤ greatest
      · have step : byteStep (some ⟨bits, 0, least, greatest⟩) byte =
            .complete (Char.ofNat (bits * 64 + (byte.toNat - 0x80))) := by
          simp [byteStep, OpenCharacter.advance, between]
        rw [step] at reads
        obtain ⟨others, further, rfl⟩ := Option.map_eq_some_iff.mp reads
        exact ⟨byte, rest, others, rfl, between.1, between.2, rfl, further⟩
      · have step : byteStep (some ⟨bits, 0, least, greatest⟩) byte = .refused := by
          simp [byteStep, OpenCharacter.advance]
          omega
        rw [step] at reads
        cases reads

/-- A character of which more bytes are owed goes on with a byte between the bounds. -/
theorem exists_of_readExactly_more
    (reads : readExactly (some ⟨bits, owed + 1, least, greatest⟩) bytes = some characters) :
    ∃ byte rest, bytes = byte :: rest ∧ least ≤ byte.toNat ∧ byte.toNat ≤ greatest ∧
      readExactly (some ⟨bits * 64 + (byte.toNat - 0x80), owed, 0x80, 0xBF⟩) rest =
        some characters := by
  cases bytes with
  | nil => cases reads
  | cons byte rest =>
      rw [readExactly_cons] at reads
      by_cases between : least ≤ byte.toNat ∧ byte.toNat ≤ greatest
      · have step : byteStep (some ⟨bits, owed + 1, least, greatest⟩) byte =
            .continues ⟨bits * 64 + (byte.toNat - 0x80), owed, 0x80, 0xBF⟩ := by
          simp [byteStep, OpenCharacter.advance, between]
        rw [step] at reads
        exact ⟨byte, rest, rfl, between.1, between.2, reads⟩
      · have step : byteStep (some ⟨bits, owed + 1, least, greatest⟩) byte = .refused := by
          simp [byteStep, OpenCharacter.advance]
          omega
        rw [step] at reads
        cases reads

end

theorem val_toNat_ofNat {code : Nat} (valid : code.isValidChar) :
    (Char.ofNat code).val.toNat = code := by
  rw [Char.ofNat, dif_pos valid]
  rfl

/-- The first byte of a character of several bytes tells how many these are, and keeps the second
one from making too small or too large a code. -/
theorem cases_of_startCharacter {first : Nat} {pending : OpenCharacter}
    (start : startCharacter first = .continues pending) :
    (0xC2 ≤ first ∧ first ≤ 0xDF ∧ pending = ⟨first - 0xC0, 0, 0x80, 0xBF⟩) ∨
    (∃ least greatest, 0xE0 ≤ first ∧ first ≤ 0xEF ∧ 0x80 ≤ least ∧ greatest ≤ 0xBF ∧
      (first = 0xE0 → 0xA0 ≤ least) ∧ (first = 0xED → greatest ≤ 0x9F) ∧
      pending = ⟨first - 0xE0, 1, least, greatest⟩) ∨
    (∃ least greatest, 0xF0 ≤ first ∧ first ≤ 0xF4 ∧ 0x80 ≤ least ∧ greatest ≤ 0xBF ∧
      (first = 0xF0 → 0x90 ≤ least) ∧ (first = 0xF4 → greatest ≤ 0x8F) ∧
      pending = ⟨first - 0xF0, 2, least, greatest⟩) := by
  simp only [startCharacter, Bool.and_eq_true, decide_eq_true_eq] at start
  split at start
  · cases start
  split at start
  next two =>
    rw [← ByteStep.continues.inj start]
    exact .inl ⟨two.1, two.2, rfl⟩
  split at start
  next lowest =>
    rw [← ByteStep.continues.inj start, lowest]
    exact .inr (.inl ⟨0xA0, 0xBF, by decide⟩)
  split at start
  next surrogate =>
    rw [← ByteStep.continues.inj start, surrogate]
    exact .inr (.inl ⟨0x80, 0x9F, by decide⟩)
  split at start
  next three =>
    rw [← ByteStep.continues.inj start]
    exact .inr (.inl ⟨0x80, 0xBF, by omega, by omega, by omega, by omega, by omega, by omega, rfl⟩)
  split at start
  next lowest =>
    rw [← ByteStep.continues.inj start, lowest]
    exact .inr (.inr ⟨0x90, 0xBF, by decide⟩)
  split at start
  next four =>
    rw [← ByteStep.continues.inj start]
    exact .inr (.inr ⟨0x80, 0xBF, by omega, by omega, by omega, by omega, by omega, by omega, rfl⟩)
  split at start
  next highest =>
    rw [← ByteStep.continues.inj start, highest]
    exact .inr (.inr ⟨0x80, 0x8F, by decide⟩)
  · cases start

theorem startCharacter_eq_complete {first : Nat} {character : Char}
    (start : startCharacter first = .complete character) :
    first ≤ 0x7F ∧ character = Char.ofNat first := by
  unfold startCharacter at start
  split at start
  next small =>
    cases start
    exact ⟨small, rfl⟩
  · repeat' split at start
    all_goals cases start

/-- A byte is known by its number. -/
theorem ofNat_eq (byte : UInt8) {number : Nat} (same : number = byte.toNat) :
    UInt8.ofNat number = byte := by
  rw [same, UInt8.ofNat_toNat]

section

variable {first second third fourth : UInt8}

theorem utf8EncodeChar_one (small : first.toNat ≤ 0x7F) :
    String.utf8EncodeChar (Char.ofNat first.toNat) = [first] := by
  rw [String.utf8EncodeChar, val_toNat_ofNat (.inl (by omega)), if_pos small, UInt8.ofNat_toNat]

theorem utf8EncodeChar_two (lead : 0xC2 ≤ first.toNat ∧ first.toNat ≤ 0xDF)
    (last : 0x80 ≤ second.toNat ∧ second.toNat ≤ 0xBF) :
    String.utf8EncodeChar
      (Char.ofNat ((first.toNat - 0xC0) * 64 + (second.toNat - 0x80))) = [first, second] := by
  rw [String.utf8EncodeChar, val_toNat_ofNat (.inl (by omega)), if_neg (by omega), if_pos (by omega),
    ofNat_eq first (by omega), ofNat_eq second (by omega)]

theorem utf8EncodeChar_three (lead : 0xE0 ≤ first.toNat ∧ first.toNat ≤ 0xEF)
    (next : 0x80 ≤ second.toNat ∧ second.toNat ≤ 0xBF)
    (lowest : first.toNat = 0xE0 → 0xA0 ≤ second.toNat)
    (whole : first.toNat = 0xED → second.toNat ≤ 0x9F)
    (last : 0x80 ≤ third.toNat ∧ third.toNat ≤ 0xBF) :
    String.utf8EncodeChar
      (Char.ofNat (((first.toNat - 0xE0) * 64 + (second.toNat - 0x80)) * 64 +
        (third.toNat - 0x80))) = [first, second, third] := by
  have valid : (((first.toNat - 0xE0) * 64 + (second.toNat - 0x80)) * 64 +
      (third.toNat - 0x80)).isValidChar := by
    by_cases below : first.toNat ≤ 0xED
    · by_cases surrogate : first.toNat = 0xED
      · exact .inl (by have := whole surrogate; omega)
      · exact .inl (by omega)
    · exact .inr (by omega)
  have large : 0x7FF < ((first.toNat - 0xE0) * 64 + (second.toNat - 0x80)) * 64 +
      (third.toNat - 0x80) := by
    by_cases least : first.toNat = 0xE0
    · have := lowest least
      omega
    · omega
  rw [String.utf8EncodeChar, val_toNat_ofNat valid, if_neg (by omega), if_neg (by omega),
    if_pos (by omega), ofNat_eq first (by omega), ofNat_eq second (by omega),
    ofNat_eq third (by omega)]

theorem utf8EncodeChar_four (lead : 0xF0 ≤ first.toNat ∧ first.toNat ≤ 0xF4)
    (next : 0x80 ≤ second.toNat ∧ second.toNat ≤ 0xBF)
    (lowest : first.toNat = 0xF0 → 0x90 ≤ second.toNat)
    (highest : first.toNat = 0xF4 → second.toNat ≤ 0x8F)
    (more : 0x80 ≤ third.toNat ∧ third.toNat ≤ 0xBF)
    (last : 0x80 ≤ fourth.toNat ∧ fourth.toNat ≤ 0xBF) :
    String.utf8EncodeChar
      (Char.ofNat ((((first.toNat - 0xF0) * 64 + (second.toNat - 0x80)) * 64 +
        (third.toNat - 0x80)) * 64 + (fourth.toNat - 0x80))) = [first, second, third, fourth] := by
  have large : 0xFFFF < (((first.toNat - 0xF0) * 64 + (second.toNat - 0x80)) * 64 +
      (third.toNat - 0x80)) * 64 + (fourth.toNat - 0x80) := by
    by_cases least : first.toNat = 0xF0
    · have := lowest least
      omega
    · omega
  have small : (((first.toNat - 0xF0) * 64 + (second.toNat - 0x80)) * 64 +
      (third.toNat - 0x80)) * 64 + (fourth.toNat - 0x80) < 0x110000 := by
    by_cases greatest : first.toNat = 0xF4
    · have := highest greatest
      omega
    · omega
  rw [String.utf8EncodeChar, val_toNat_ofNat (.inr ⟨by omega, small⟩), if_neg (by omega),
    if_neg (by omega), if_neg (by omega), ofNat_eq first (by omega),
    ofNat_eq second (by omega), ofNat_eq third (by omega),
    ofNat_eq fourth (by omega)]

end

/-- **Bytes are read exactly as the characters whose bytes they are.** -/
theorem eq_flatMap_of_readExactly {bytes : List UInt8} {characters : List Char}
    (reads : readExactly none bytes = some characters) :
    bytes = characters.flatMap String.utf8EncodeChar := by
  -- A character takes at least one byte, so the rest after it is shorter.
  induction count : bytes.length using Nat.strongRecOn generalizing bytes characters with
  | ind count ih =>
    cases bytes with
    | nil =>
        cases reads
        rfl
    | cons first rest =>
        subst count
        rw [readExactly_cons] at reads
        split at reads
        next character start =>
          obtain ⟨small, rfl⟩ := startCharacter_eq_complete start
          obtain ⟨others, further, rfl⟩ := Option.map_eq_some_iff.mp reads
          rw [List.flatMap_cons, utf8EncodeChar_one small, ← ih _ (by simp) further rfl,
            List.singleton_append]
        next pending start =>
          obtain ⟨lead, most, rfl⟩ | ⟨least, greatest, lead, most, above, below, lowest, whole, rfl⟩ |
            ⟨least, greatest, lead, most, above, below, lowest, highest, rfl⟩ :=
            cases_of_startCharacter start
          · obtain ⟨second, rest, others, rfl, atLeast, atMost, rfl, further⟩ :=
              exists_of_readExactly_last reads
            rw [List.flatMap_cons, utf8EncodeChar_two ⟨lead, most⟩ ⟨atLeast, atMost⟩,
              ← ih _ (by simp only [List.length_cons]; omega) further rfl]
            rfl
          · obtain ⟨second, rest, rfl, atLeast, atMost, more⟩ := exists_of_readExactly_more reads
            obtain ⟨third, rest, others, rfl, isTail, isByte, rfl, further⟩ :=
              exists_of_readExactly_last more
            rw [List.flatMap_cons, utf8EncodeChar_three ⟨lead, most⟩ (by omega) (by omega)
              (by omega) ⟨isTail, isByte⟩,
              ← ih _ (by simp only [List.length_cons]; omega) further rfl]
            rfl
          · obtain ⟨second, rest, rfl, atLeast, atMost, more⟩ := exists_of_readExactly_more reads
            obtain ⟨third, rest, rfl, isTail, isByte, last⟩ := exists_of_readExactly_more more
            obtain ⟨fourth, rest, others, rfl, isLast, ends, rfl, further⟩ :=
              exists_of_readExactly_last last
            rw [List.flatMap_cons, utf8EncodeChar_four ⟨lead, most⟩ (by omega) (by omega)
              (by omega) ⟨isTail, isByte⟩ ⟨isLast, ends⟩,
              ← ih _ (by simp only [List.length_cons]; omega) further rfl]
            rfl
        next => cases reads

/-! ## Texts and their bytes -/

/-- **Bytes are read as a text exactly if they are its bytes.** -/
theorem decode?_eq_some_iff {bytes : List UInt8} {text : String} :
    decode? bytes = some text ↔ bytes = encode text := by
  constructor
  · intro decodes
    obtain ⟨characters, reads, rfl⟩ := Option.map_eq_some_iff.mp decodes
    rw [encode, String.toList_ofList]
    exact eq_flatMap_of_readExactly reads
  · rintro rfl
    exact decode?_encode text

/-- Nothing is replaced in the bytes of a text. -/
theorem decodeLossy_encode (text : String) : decodeLossy (encode text) = text := by
  obtain ⟨characters, reads, same⟩ := Option.map_eq_some_iff.mp (decode?_encode text)
  rw [decodeLossy, readBytes_of_readExactly reads, same]

end Text

/-! ## Paths that are texts -/

namespace HostPath

/-- The bytes of the path are UTF-8. -/
def IsText (path : HostPath) : Prop := ∃ text, path = ofText text

theorem display_ofText (text : String) : (ofText text).display = text :=
  Text.decodeLossy_encode text

/-- A path is a text exactly if nothing is replaced where it is shown. -/
theorem ofText_display_eq_iff {path : HostPath} : ofText path.display = path ↔ path.IsText := by
  constructor
  · intro same
    exact ⟨path.display, same.symm⟩
  · rintro ⟨text, rfl⟩
    rw [display_ofText]

/-- **Paths that are texts are told apart by what is shown.** -/
theorem IsText.eq_of_display_eq {path other : HostPath} (isText : path.IsText)
    (alsoText : other.IsText) (same : path.display = other.display) : path = other := by
  rw [← ofText_display_eq_iff.mpr isText, same, ofText_display_eq_iff.mpr alsoText]

end HostPath

end StageManifest
