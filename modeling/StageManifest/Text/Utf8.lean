/-!
# UTF-8 with replacement

Bytes become text by reading them as UTF-8 and writing U+FFFD for every longest
run of bytes that starts a character but does not finish it, and for every byte
that can start none.  Well-formed bytes are read exactly.
-/

set_option autoImplicit false

namespace StageManifest.Text

/-- A character of which some bytes have been read. -/
structure OpenCharacter where
  bits : Nat
  owed : Nat
  least : Nat
  greatest : Nat
deriving DecidableEq, Repr

/-- What a byte leads to. -/
inductive ByteStep where
  | complete (character : Char)
  | continues (pending : OpenCharacter)
  | refused
deriving DecidableEq, Repr

/-- Reads a byte where a character has to start. -/
def startCharacter (byte : Nat) : ByteStep :=
  if byte ≤ 0x7F then .complete (Char.ofNat byte)
  else if 0xC2 ≤ byte && byte ≤ 0xDF then .continues ⟨byte - 0xC0, 0, 0x80, 0xBF⟩
  else if byte = 0xE0 then .continues ⟨0, 1, 0xA0, 0xBF⟩
  else if byte = 0xED then .continues ⟨0xD, 1, 0x80, 0x9F⟩
  else if 0xE1 ≤ byte && byte ≤ 0xEF then .continues ⟨byte - 0xE0, 1, 0x80, 0xBF⟩
  else if byte = 0xF0 then .continues ⟨0, 2, 0x90, 0xBF⟩
  else if 0xF1 ≤ byte && byte ≤ 0xF3 then .continues ⟨byte - 0xF0, 2, 0x80, 0xBF⟩
  else if byte = 0xF4 then .continues ⟨4, 2, 0x80, 0x8F⟩
  else .refused

/-- Reads a byte that has to continue a character. -/
def OpenCharacter.advance (pending : OpenCharacter) (byte : Nat) : ByteStep :=
  if pending.least ≤ byte && byte ≤ pending.greatest then
    let bits := pending.bits * 64 + (byte - 0x80)
    match pending.owed with
    | 0 => .complete (Char.ofNat bits)
    | owed + 1 => .continues ⟨bits, owed, 0x80, 0xBF⟩
  else .refused

/-- The character written for bytes that are not UTF-8. -/
def replacement : Char := Char.ofNat 0xFFFD

/-- Reads one byte: the characters it settles and the character it leaves open. -/
def readByte (pending : Option OpenCharacter) (byte : Nat) : List Char × Option OpenCharacter :=
  let fresh : List Char × Option OpenCharacter :=
    match startCharacter byte with
    | .complete character => ([character], none)
    | .continues next => ([], some next)
    | .refused => ([replacement], none)
  match pending with
  | none => fresh
  | some unfinished =>
      match unfinished.advance byte with
      | .complete character => ([character], none)
      | .continues next => ([], some next)
      | .refused => (replacement :: fresh.1, fresh.2)

/-- Reads bytes with a character possibly open before them. -/
def readBytes : Option OpenCharacter → List UInt8 → List Char
  | none, [] => []
  | some _, [] => [replacement]
  | pending, byte :: rest =>
      let (characters, next) := readByte pending byte.toNat
      characters ++ readBytes next rest

/-- The text of bytes, with U+FFFD where they are not UTF-8. -/
def decodeLossy (bytes : List UInt8) : String :=
  String.ofList (readBytes none bytes)

/-- The characters of bytes with a character possibly open before them, if all bytes are UTF-8. -/
def readExactly : Option OpenCharacter → List UInt8 → Option (List Char)
  | none, [] => some []
  | some _, [] => none
  | pending, byte :: rest =>
      let step :=
        match pending with
        | none => startCharacter byte.toNat
        | some unfinished => unfinished.advance byte.toNat
      match step with
      | .complete character => (readExactly none rest).map (character :: ·)
      | .continues next => readExactly (some next) rest
      | .refused => none

/-- The text of bytes that are UTF-8. -/
def decode? (bytes : List UInt8) : Option String :=
  (readExactly none bytes).map String.ofList

/-- The bytes of a text in UTF-8. -/
def encode (text : String) : List UInt8 :=
  text.toList.flatMap String.utf8EncodeChar

end StageManifest.Text
