import StageManifest.Instruction.CacheMount
import StageManifest.Proofs.Text.TextBytes

/-!
# What stable ids tell apart

A stable id is eight hexadecimal digits for the directory, a dash, and eight for
the target, so two ids are equal exactly if both pairs of short digests are
(`cacheId_eq_iff`).

The digest of a directory is that of the text that is shown for it.  For a
directory in UTF-8 this text has the bytes of the path, and ids then tell
directories apart as the digests of their bytes do.  A directory that is not in
UTF-8 has the ids of another one, which is spelled with U+FFFD
(`cacheId_separates`).
-/

set_option autoImplicit false

namespace StageManifest

/-! ## Eight hexadecimal digits -/

namespace Text

/-- The digits are eight, in lower case hexadecimal. -/
def AreEightHex (digits : List Char) : Prop :=
  digits.length = 8 ∧ ∀ digit ∈ digits, digit ∈ "0123456789abcdef".toList

theorem hexDigit_mem {value : Nat} (small : value < 16) :
    hexDigit value ∈ "0123456789abcdef".toList := by
  have all : ∀ value < 16, hexDigit value ∈ "0123456789abcdef".toList := by decide
  exact all value small

theorem mem_of_mem_hexDigits {count value : Nat} {digit : Char}
    (member : digit ∈ hexDigits count value) : digit ∈ "0123456789abcdef".toList := by
  induction count generalizing value with
  | zero => cases member
  | succ count ih =>
      rw [hexDigits, List.mem_append, List.mem_singleton] at member
      rcases member with before | rfl
      · exact ih before
      · exact hexDigit_mem (Nat.mod_lt _ (by decide))

end Text

namespace Digest

/-- The first eight digits of the digest of a message. -/
def firstDigits (message : List UInt8) : List Char := (sha256Hex message).take 8

theorem areEightHex_firstDigits (message : List UInt8) :
    Text.AreEightHex (firstDigits message) := by
  constructor
  · rw [firstDigits, List.length_take, length_sha256Hex]
    rfl
  · intro digit member
    obtain ⟨word, _, isDigit⟩ := List.mem_flatMap.mp (List.mem_of_mem_take member)
    exact Text.mem_of_mem_hexDigits isDigit

end Digest

open Digest (firstDigits areEightHex_firstDigits)

/-! ## Two halves -/

theorem toList_cacheId (directory : HostPath) (target : String) :
    (cacheId directory target).toList =
      firstDigits (Text.encode directory.display) ++ '-' :: firstDigits (Text.encode target) :=
  String.toList_ofList

/-- **Ids are equal exactly if the short digests of the directories and of the targets are.** -/
theorem cacheId_eq_iff {first second : HostPath} {target other : String} :
    cacheId first target = cacheId second other ↔
      firstDigits (Text.encode first.display) = firstDigits (Text.encode second.display) ∧
        firstDigits (Text.encode target) = firstDigits (Text.encode other) := by
  rw [← String.toList_inj, toList_cacheId, toList_cacheId]
  constructor
  · intro same
    have lengths : (firstDigits (Text.encode first.display)).length =
        (firstDigits (Text.encode second.display)).length :=
      (areEightHex_firstDigits _).1.trans (areEightHex_firstDigits _).1.symm
    obtain ⟨directories, rest⟩ := List.append_inj same lengths
    exact ⟨directories, (List.cons.inj rest).2⟩
  · rintro ⟨directories, targets⟩
    rw [directories, targets]

theorem take_cacheId (directory : HostPath) (target : String) :
    (cacheId directory target).toList.take 8 = firstDigits (Text.encode directory.display) := by
  rw [toList_cacheId, List.take_left' (areEightHex_firstDigits _).1]

theorem drop_cacheId (directory : HostPath) (target : String) :
    (cacheId directory target).toList.drop 9 = firstDigits (Text.encode target) := by
  have dash : (firstDigits (Text.encode directory.display) ++ ['-']).length = 9 := by
    rw [List.length_append, (areEightHex_firstDigits _).1]
    rfl
  rw [toList_cacheId, List.append_cons, List.drop_left' dash]

/-! ## Directories -/

/-- The bytes that are shown are those of the path exactly if the path is a text. -/
theorem encode_display_eq_iff {path : HostPath} :
    Text.encode path.display = path.bytes ↔ path.IsText := by
  rw [← HostPath.ofText_display_eq_iff]
  exact ⟨congrArg HostPath.mk, congrArg HostPath.bytes⟩

/-- A directory has the ids of the directory that is spelled as it is shown. -/
theorem cacheId_ofText_display (directory : HostPath) (target : String) :
    cacheId (.ofText directory.display) target = cacheId directory target := by
  rw [cacheId_eq_iff, HostPath.display_ofText]
  exact ⟨rfl, rfl⟩

/-- **Ids tell directories in UTF-8 and targets apart up to their short digests.**  What is hashed
for a directory is the text that is shown, which has the bytes of the directory if these are UTF-8;
any other directory shares its ids.  An id is made of eight digits that depend on the directory only
and eight that depend on the target only. -/
theorem cacheId_separates (first second : HostPath) (target other : String) :
    (cacheId first target = cacheId second other ↔
      firstDigits (Text.encode first.display) = firstDigits (Text.encode second.display) ∧
        firstDigits (Text.encode target) = firstDigits (Text.encode other)) ∧
    (first.IsText → second.IsText →
      (cacheId first target = cacheId second other ↔
        firstDigits first.bytes = firstDigits second.bytes ∧
          firstDigits (Text.encode target) = firstDigits (Text.encode other))) ∧
    (¬ first.IsText →
      ∃ neighbour ≠ first, ∀ target, cacheId neighbour target = cacheId first target) ∧
    ∃ ofDirectory ofTarget,
      (cacheId first target).toList = ofDirectory ++ '-' :: ofTarget ∧
      Text.AreEightHex ofDirectory ∧ Text.AreEightHex ofTarget ∧
      (∀ target, (cacheId first target).toList.take 8 = ofDirectory) ∧
      ∀ directory, (cacheId directory target).toList.drop 9 = ofTarget := by
  refine ⟨cacheId_eq_iff, fun isText alsoText => ?_, fun noText => ?_, ?_⟩
  · rw [cacheId_eq_iff, encode_display_eq_iff.mpr isText, encode_display_eq_iff.mpr alsoText]
  · exact ⟨_, mt HostPath.ofText_display_eq_iff.mp noText, cacheId_ofText_display first⟩
  · exact ⟨_, _, toList_cacheId first target, areEightHex_firstDigits _,
      areEightHex_firstDigits _, take_cacheId first, fun directory => drop_cacheId directory target⟩

/-- Two projects in UTF-8 have different ids for one target, and a directory that is not in UTF-8
has a neighbour with the same ids. -/
theorem cacheId_separates_projects :
    (HostPath.ofText "/work/a").IsText ∧ (HostPath.ofText "/work/b").IsText ∧
      cacheId (.ofText "/work/a") "/var/cache/apt" ≠ cacheId (.ofText "/work/b") "/var/cache/apt" ∧
      ¬ HostPath.IsText ⟨[0x2F, 0xFF]⟩ ∧
      ∃ neighbour ≠ (⟨[0x2F, 0xFF]⟩ : HostPath), ∀ target,
        cacheId neighbour target = cacheId ⟨[0x2F, 0xFF]⟩ target := by
  obtain ⟨_, separates, _⟩ := cacheId_separates (.ofText "/work/a") (.ofText "/work/b")
    "/var/cache/apt" "/var/cache/apt"
  obtain ⟨_, _, shares, _⟩ := cacheId_separates ⟨[0x2F, 0xFF]⟩ ⟨[0x2F, 0xFF]⟩ "/c" "/c"
  have noText : ¬ HostPath.IsText ⟨[0x2F, 0xFF]⟩ := by
    rw [← HostPath.ofText_display_eq_iff]
    decide
  refine ⟨⟨_, rfl⟩, ⟨_, rfl⟩, ?_, noText, shares noText⟩
  rw [Ne, separates ⟨_, rfl⟩ ⟨_, rfl⟩]
  exact fun same => absurd same.1 (by decide +kernel)

/-- **Ids mix up directories that are not in UTF-8**, although the digests of their bytes differ. -/
theorem cacheId_mixes_up_unreadable_directories :
    cacheId ⟨[0x2F, 0xFF]⟩ "/c" = cacheId ⟨[0x2F, 0xFE]⟩ "/c" ∧
      firstDigits [0x2F, 0xFF] ≠ firstDigits [0x2F, 0xFE] := by
  constructor
  · rw [cacheId_eq_iff]
    exact ⟨rfl, rfl⟩
  · decide +kernel

end StageManifest
