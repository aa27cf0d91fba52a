import Mathlib.Data.List.Basic
import StageManifest.Engine.Streams
import StageManifest.Proofs.Text.Utf8

/-!
# Lines of written bytes

An engine writes bytes, and these are cut into lines before they are read as
text.  In UTF-8 the bytes of a line feed and of a carriage return are in no
other character, so cutting the bytes of a text gives the lines of the text,
all of them (`outputLines_encode`).
-/

set_option autoImplicit false

namespace StageManifest

namespace Text

/-! ## Bytes of ASCII -/

/-- A byte of ASCII is in no other character than its own. -/
theorem toNat_eq_of_mem_utf8EncodeChar {byte : UInt8} {character : Char}
    (ascii : byte.toNat < 0x80) (member : byte ∈ String.utf8EncodeChar character) :
    character.toNat = byte.toNat := by
  have high {number : Nat} (atLeast : 0x80 ≤ number) (small : number < 256) :
      byte ≠ UInt8.ofNat number := by
    rintro rfl
    rw [UInt8.toNat_ofNat_of_lt' small] at ascii
    omega
  have range : character.val.toNat < 0x110000 := by
    rcases character.valid with small | ⟨_, large⟩
    · exact Nat.lt_trans small (by decide)
    · exact large
  rw [String.utf8EncodeChar] at member
  split at member
  next small =>
    rw [List.mem_singleton.mp member, UInt8.toNat_ofNat_of_lt' (Nat.lt_of_le_of_lt small (by decide))]
    rfl
  split at member
  · simp only [List.mem_cons, List.not_mem_nil, or_false] at member
    rcases member with same | same
    all_goals exact absurd same (high (by omega) (by omega))
  split at member
  · simp only [List.mem_cons, List.not_mem_nil, or_false] at member
    rcases member with same | same | same
    all_goals exact absurd same (high (by omega) (by omega))
  · simp only [List.mem_cons, List.not_mem_nil, or_false] at member
    rcases member with same | same | same | same
    all_goals exact absurd same (high (by omega) (by omega))

/-- The bytes of characters. -/
def encodeAll (characters : List Char) : List UInt8 := characters.flatMap String.utf8EncodeChar

theorem decode?_encodeAll (characters : List Char) :
    decode? (encodeAll characters) = some (String.ofList characters) := by
  rw [← decode?_encode (String.ofList characters), encode, String.toList_ofList, encodeAll]

theorem encodeAll_append (first second : List Char) :
    encodeAll (first ++ second) = encodeAll first ++ encodeAll second :=
  List.flatMap_append

/-- The byte of a character of ASCII is only where the character is. -/
theorem mem_encodeAll_iff {byte : UInt8} {character : Char} (ascii : byte.toNat < 0x80)
    (own : String.utf8EncodeChar character = [byte]) (characters : List Char) :
    byte ∈ encodeAll characters ↔ character ∈ characters := by
  rw [encodeAll, List.mem_flatMap]
  constructor
  · rintro ⟨other, inside, member⟩
    have code : other.toNat = character.toNat := by
      rw [toNat_eq_of_mem_utf8EncodeChar ascii member,
        toNat_eq_of_mem_utf8EncodeChar ascii (own ▸ List.mem_singleton_self byte)]
    have same : other = character := Char.ext (UInt32.toNat.inj code)
    exact same ▸ inside
  · intro inside
    exact ⟨character, inside, own ▸ List.mem_singleton_self byte⟩

/-! ## Cutting bytes -/

/-- The bytes of a text are cut where the text is. -/
theorem splitOn_encodeAll (characters : List Char) :
    (encodeAll characters).splitOn 0x0A = (characters.splitOn '\n').map encodeAll := by
  -- Each piece takes at least the line feed that ends it.
  induction count : characters.length using Nat.strongRecOn generalizing characters with
  | ind count ih =>
    subst count
    have noFeed (piece : List Char) : (0x0A : UInt8) ∈ encodeAll piece ↔ '\n' ∈ piece :=
      mem_encodeAll_iff (by decide) (by decide) piece
    by_cases inside : '\n' ∈ characters
    · obtain ⟨piece, rest, rfl, absent⟩ := List.eq_append_cons_of_mem inside
      have bytes : encodeAll (piece ++ '\n' :: rest) = encodeAll piece ++ 0x0A :: encodeAll rest :=
        encodeAll_append piece ('\n' :: rest)
      rw [bytes, List.splitOn_append_cons_self_of_not_mem (mt (noFeed piece).mp absent),
        List.splitOn_append_cons_self_of_not_mem absent, List.map_cons,
        ih rest.length (by simp only [List.length_append, List.length_cons]; omega) rest rfl]
    · rw [List.splitOn_eq_singleton inside, List.map_singleton,
        List.splitOn_eq_singleton (mt (noFeed characters).mp inside)]

theorem dropReturnByte_encodeAll (characters : List Char) :
    dropReturnByte (encodeAll characters) = encodeAll (dropCarriageReturn characters) := by
  rcases List.eq_nil_or_concat characters with rfl | ⟨before, last, rfl⟩
  · rfl
  rw [List.concat_eq_append, dropReturnByte, dropCarriageReturn, List.getLast?_concat,
    encodeAll_append]
  have bytes : encodeAll [last] = String.utf8EncodeChar last := List.append_nil _
  by_cases isReturn : last = '\r'
  · subst isReturn
    have own : encodeAll ['\r'] = [0x0D] := rfl
    rw [own, List.getLast?_concat, if_pos rfl, if_pos rfl, List.dropLast_concat,
      List.dropLast_concat]
  · have other : (encodeAll before ++ encodeAll [last]).getLast? ≠ some 0x0D := by
      rw [bytes, List.getLast?_append_of_ne_nil _ String.utf8EncodeChar_ne_nil]
      intro isByte
      have inside := (mem_encodeAll_iff (by decide)
        (by decide : String.utf8EncodeChar '\r' = [0x0D]) [last]).mp
        (bytes ▸ List.mem_of_getLast? isByte)
      exact isReturn (List.mem_singleton.mp inside).symm
    rw [if_neg other, if_neg (by simpa using isReturn), encodeAll_append]

end Text

open Text (encodeAll)

theorem decodePieces_map_encodeAll (pieces : List (List Char)) :
    decodePieces (pieces.map encodeAll) = (Text.linesOfPieces pieces).map String.ofList := by
  induction pieces with
  | nil => rfl
  | cons piece rest ih =>
      cases rest with
      | nil =>
          cases piece with
          | nil => rfl
          | cons character rest =>
              have filled : (encodeAll (character :: rest)).isEmpty = false := by
                rw [Bool.eq_false_iff, Ne, List.isEmpty_iff]
                exact fun empty => String.utf8EncodeChar_ne_nil (List.append_eq_nil_iff.mp empty).1
              rw [List.map_singleton, decodePieces, filled, Text.decode?_encodeAll]
              rfl
      | cons next rest =>
          rw [List.map_cons, List.map_cons, decodePieces, Text.dropReturnByte_encodeAll,
            Text.decode?_encodeAll, ← List.map_cons, ih]
          rfl

/-- **The lines of written text are read, all of them.** -/
theorem outputLines_encode (text : String) : outputLines (Text.encode text) = Text.lines text := by
  rw [outputLines, Text.encode, ← encodeAll, Text.splitOn_encodeAll, decodePieces_map_encodeAll,
    Text.lines]

end StageManifest
