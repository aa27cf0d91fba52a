import StageManifest.Text.Digits
import StageManifest.Text.Utf8

/-!
# SHA-256

The digest of a list of bytes, as eight words and as 64 hexadecimal digits.
The message is padded to whole blocks of sixteen words; a block is compressed
with the 64 round constants while a window of sixteen words slides over the
message schedule.
-/

set_option autoImplicit false

namespace StageManifest.Digest

/-- The eight words that a block is mixed into. -/
structure State where
  a : UInt32
  b : UInt32
  c : UInt32
  d : UInt32
  e : UInt32
  f : UInt32
  g : UInt32
  h : UInt32
deriving DecidableEq, Repr

/-- The state before the first block. -/
def State.start : State :=
  ⟨0x6a09e667, 0xbb67ae85, 0x3c6ef372, 0xa54ff53a, 0x510e527f, 0x9b05688c, 0x1f83d9ab, 0x5be0cd19⟩

/-- The constants of the 64 rounds. -/
def roundConstants : List UInt32 :=
  [0x428a2f98, 0x71374491, 0xb5c0fbcf, 0xe9b5dba5, 0x3956c25b, 0x59f111f1, 0x923f82a4, 0xab1c5ed5,
   0xd807aa98, 0x12835b01, 0x243185be, 0x550c7dc3, 0x72be5d74, 0x80deb1fe, 0x9bdc06a7, 0xc19bf174,
   0xe49b69c1, 0xefbe4786, 0x0fc19dc6, 0x240ca1cc, 0x2de92c6f, 0x4a7484aa, 0x5cb0a9dc, 0x76f988da,
   0x983e5152, 0xa831c66d, 0xb00327c8, 0xbf597fc7, 0xc6e00bf3, 0xd5a79147, 0x06ca6351, 0x14292967,
   0x27b70a85, 0x2e1b2138, 0x4d2c6dfc, 0x53380d13, 0x650a7354, 0x766a0abb, 0x81c2c92e, 0x92722c85,
   0xa2bfe8a1, 0xa81a664b, 0xc24b8b70, 0xc76c51a3, 0xd192e819, 0xd6990624, 0xf40e3585, 0x106aa070,
   0x19a4c116, 0x1e376c08, 0x2748774c, 0x34b0bcb5, 0x391c0cb3, 0x4ed8aa4a, 0x5b9cca4f, 0x682e6ff3,
   0x748f82ee, 0x78a5636f, 0x84c87814, 0x8cc70208, 0x90befffa, 0xa4506ceb, 0xbef9a3f7, 0xc67178f2]

/-- A word turned to the right by a number of bits. -/
def rotateRight (word amount : UInt32) : UInt32 :=
  (word >>> amount) ||| (word <<< (32 - amount))

/-- One round: a schedule word and a constant are mixed into the state. -/
def State.round (s : State) (word constant : UInt32) : State :=
  let mix1 := rotateRight s.e 6 ^^^ rotateRight s.e 11 ^^^ rotateRight s.e 25
  let choice := (s.e &&& s.f) ^^^ (~~~ s.e &&& s.g)
  let first := s.h + mix1 + choice + constant + word
  let mix0 := rotateRight s.a 2 ^^^ rotateRight s.a 13 ^^^ rotateRight s.a 22
  let majority := (s.a &&& s.b) ^^^ (s.a &&& s.c) ^^^ (s.b &&& s.c)
  ⟨first + (mix0 + majority), s.a, s.b, s.c, s.d + first, s.e, s.f, s.g⟩

/-- The schedule word that follows a window of sixteen. -/
def nextWord (window : List UInt32) : UInt32 :=
  let far := window.getD 1 0
  let near := window.getD 14 0
  let mix0 := rotateRight far 7 ^^^ rotateRight far 18 ^^^ (far >>> 3)
  let mix1 := rotateRight near 17 ^^^ rotateRight near 19 ^^^ (near >>> 10)
  mix1 + window.getD 9 0 + mix0 + window.getD 0 0

/-- The rounds of the given constants, each with the first word of the sliding window. -/
def rounds : (constants : List UInt32) → (window : List UInt32) → State → State
  | [], _, state => state
  | constant :: constants, window, state =>
      rounds constants (window.drop 1 ++ [nextWord window])
        (state.round (window.getD 0 0) constant)

/-- The word by word sum of two states. -/
def State.add (s t : State) : State :=
  ⟨s.a + t.a, s.b + t.b, s.c + t.c, s.d + t.d, s.e + t.e, s.f + t.f, s.g + t.g, s.h + t.h⟩

/-- Mixes one block of sixteen words into the state. -/
def State.compress (s : State) (block : List UInt32) : State :=
  s.add (rounds roundConstants block s)

/-- The length of a message in bits, as eight bytes. -/
def lengthBytes (count : Nat) : List UInt8 :=
  [56, 48, 40, 32, 24, 16, 8, 0].map fun shift => UInt8.ofNat ((8 * count) >>> shift)

/-- The message with its padding, a whole number of blocks. -/
def padded (message : List UInt8) : List UInt8 :=
  message ++ 0x80 :: (List.replicate ((119 - message.length % 64) % 64) 0 ++
    lengthBytes message.length)

/-- Bytes as words of four, the first byte of each the highest. -/
def words : List UInt8 → List UInt32
  | first :: second :: third :: fourth :: rest =>
      ((first.toUInt32 <<< 24) ||| (second.toUInt32 <<< 16) ||| (third.toUInt32 <<< 8) |||
        fourth.toUInt32) :: words rest
  | _ => []

/-- Mixes the given number of blocks into the state. -/
def absorb : (blocks : Nat) → List UInt32 → State → State
  | 0, _, state => state
  | blocks + 1, message, state =>
      absorb blocks (message.drop 16) (state.compress (message.take 16))

/-- The words of a state, in order. -/
def State.toList (s : State) : List UInt32 :=
  [s.a, s.b, s.c, s.d, s.e, s.f, s.g, s.h]

/-- The SHA-256 digest of a message, as eight words. -/
def sha256 (message : List UInt8) : List UInt32 :=
  let scheduled := words (padded message)
  (absorb (scheduled.length / 16) scheduled State.start).toList

/-- The SHA-256 digest of a message, as 64 lower case hexadecimal digits. -/
def sha256Hex (message : List UInt8) : List Char :=
  (sha256 message).flatMap fun word => Text.hexDigits 8 word.toNat

/-- The SHA-256 digest of a text in UTF-8, as hexadecimal digits. -/
def textDigest (text : String) : String :=
  String.ofList (sha256Hex (Text.encode text))

/-- A digest is 64 digits long. -/
theorem length_sha256Hex (message : List UInt8) : (sha256Hex message).length = 64 := by
  simp [sha256Hex, sha256, State.toList, Text.length_hexDigits]

end StageManifest.Digest
