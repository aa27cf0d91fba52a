import StageManifest.Digest.Sha256
import StageManifest.Text.Digits

/-!
# Names of stages

A stage is known by its name, so names are handed out by an explicit source.
The usual source numbers them; another lists them in advance; a third derives
them from a seed so that they are unique across sources.
-/

set_option autoImplicit false

namespace StageManifest

/-- Where stage names come from. -/
inductive NameSource where
  /-- A stem, a dash and a counter of 64 bits, which starts again after its last value. -/
  | numbered (stem : String) (drawn : UInt64)
  /-- The names that come next, and the one that is repeated after them. -/
  | listed (upcoming : List String) (final : String)
  | seeded (seed : List UInt8) (drawn : Nat)
deriving DecidableEq, Repr

/-! ## Random identifiers -/

/-- Sixteen bytes with the version and the variant of a random identifier put in. -/
def markRandomIdentifier (bytes : List UInt8) : List UInt8 :=
  (bytes.modify 6 fun byte => (byte &&& 0x0F) ||| 0x40).modify 8
    fun byte => (byte &&& 0x3F) ||| 0x80

/-- Thirty-two hexadecimal digits that identify a draw from a seed. -/
def randomIdentifier (seed : List UInt8) (draw : Nat) : List Char :=
  let words := Digest.sha256 (seed ++ Digest.lengthBytes draw)
  let bytes := (words.take 4).flatMap fun word =>
    [24, 16, 8, 0].map fun shift => (word >>> shift).toUInt8
  (markRandomIdentifier bytes).flatMap fun byte => Text.hexDigits 2 byte.toNat

/-- The digits of the random identifier made of sixteen bytes, in groups with dashes between
them. -/
def groupedIdentifier (bytes : List UInt8) : String :=
  let digits := (markRandomIdentifier bytes).flatMap fun byte => Text.hexDigits 2 byte.toNat
  let group := fun (start size : Nat) => String.ofList ((digits.drop start).take size)
  "-".intercalate [group 0 8, group 8 4, group 12 4, group 16 4, group 20 12]

namespace NameSource

/-- The numbered names with the usual stem. -/
def standard : NameSource := .numbered "stage" 0

/-- The next name and the source after it. -/
def next : NameSource → String × NameSource
  | .numbered stem drawn => (stem ++ "-" ++ Nat.repr drawn.toNat, .numbered stem (drawn + 1))
  | .listed [] final => (final, .listed [] final)
  | .listed (name :: upcoming) final => (name, .listed upcoming final)
  | .seeded seed drawn =>
      ("stage-" ++ String.ofList (randomIdentifier seed drawn), .seeded seed (drawn + 1))

end NameSource

end StageManifest
