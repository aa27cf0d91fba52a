import StageManifest.Instruction.CacheMount
import StageManifest.Toml.Parse
import StageManifest.Toml.Printer

/-!
# Cache mounts as documents

A cache mount is written as a document with one entry for its target, one for
each option that is set and one for the flag that makes it read-only.  Reading
takes what is missing as unset and passes over keys that are none of these.
-/

set_option autoImplicit false

namespace StageManifest.CacheMount

open Toml (Value Decoded Shape)

/-- An integer of a document. -/
def numberValue (number : UInt32) : Value :=
  .integer (Int64.ofNat number.toNat)

/-- The entry of an option that is set. -/
def optionEntry {α : Type} (key : String) (value : α → Value) (option : Option α) :
    List (String × Value) :=
  (option.map fun set => (key, value set)).toList

/-- The entries of the document of a mount. -/
def entries (mount : CacheMount) : List (String × Value) :=
  [("target", .string mount.target)] ++
    optionEntry "sharing" (fun sharing => .string sharing.keyword) mount.sharing ++
    optionEntry "id" Value.string mount.id ++
    optionEntry "source" Value.string mount.source ++
    optionEntry "uid" numberValue mount.uid ++
    optionEntry "gid" numberValue mount.gid ++
    optionEntry "mode" numberValue mount.mode ++
    [("readonly", .boolean mount.readOnly)]

/-- The document of a mount. -/
def documentText (mount : CacheMount) : String :=
  Toml.documentText .compact mount.entries

/-- The ways of sharing by their keywords. -/
def sharingCases : List (String × Sharing) :=
  [("shared", .shared), ("private", .separate), ("locked", .locked)]

/-- The schema of a mount. -/
def shape : Shape CacheMount :=
  ⟨"CacheMount",
    [⟨"target", true, fun value mount => do
        return { mount with target := ← Toml.decodeString .document value }⟩,
      ⟨"sharing", true, fun value mount => do
        return { mount with sharing := some (← Toml.decodeChoice .document sharingCases value) }⟩,
      ⟨"id", true, fun value mount => do
        return { mount with id := some (← Toml.decodeString .document value) }⟩,
      ⟨"source", true, fun value mount => do
        return { mount with source := some (← Toml.decodeString .document value) }⟩,
      ⟨"uid", true, fun value mount => do
        return { mount with uid := some (← Toml.decodeUInt32 .document value) }⟩,
      ⟨"gid", true, fun value mount => do
        return { mount with gid := some (← Toml.decodeUInt32 .document value) }⟩,
      ⟨"mode", true, fun value mount => do
        return { mount with mode := some (← Toml.decodeUInt32 .document value) }⟩,
      ⟨"readonly", true, fun value mount => do
        return { mount with readOnly := ← Toml.decodeBoolean .document value }⟩],
    false⟩

/-- The mount that a document holds. -/
def ofDocument (text : String) : Except Toml.DocumentFault CacheMount :=
  Toml.parseAs (shape.decode .document {}) text

end StageManifest.CacheMount
