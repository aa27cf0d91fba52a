import StageManifest.Digest.Sha256
import StageManifest.HostPath
import StageManifest.Text.Digits

/-!
# Cache mounts

A run instruction may mount directories that the build engine keeps between
builds.  A mount names its target inside the build container and may set any of
seven further options; it is written as a comma separated list in which the
options that are set stand in a fixed order.

The stable id of a mount is derived from the project directory and the target,
so that repeated builds of one project share a cache.
-/

set_option autoImplicit false

namespace StageManifest

/-- How builds that run at the same time use one cache. -/
inductive Sharing where
  | shared
  /-- A writer gets a cache of its own while another holds this one. -/
  | separate
  | locked
deriving DecidableEq, Repr

/-- The engine's keyword for a way of sharing. -/
def Sharing.keyword : Sharing → String
  | .shared => "shared"
  | .separate => "private"
  | .locked => "locked"

/-- The way of sharing that a keyword stands for. -/
def Sharing.ofKeyword? : String → Option Sharing
  | "shared" => some .shared
  | "private" => some .separate
  | "locked" => some .locked
  | _ => none

/-- A cache mounted while a command runs. -/
structure CacheMount where
  target : String := ""
  sharing : Option Sharing := none
  id : Option String := none
  source : Option String := none
  uid : Option UInt32 := none
  gid : Option UInt32 := none
  mode : Option UInt32 := none
  readOnly : Bool := false
deriving DecidableEq, Repr

namespace CacheMount

/-- The pieces of a written mount, those of unset options left out. -/
def pieces (mount : CacheMount) : List String :=
  ["type=cache", "target=" ++ mount.target] ++
    (mount.sharing.map fun sharing => "sharing=" ++ sharing.keyword).toList ++
    (mount.id.map fun id => "id=" ++ id).toList ++
    (if mount.readOnly then ["ro"] else []) ++
    (mount.uid.map fun uid => "uid=" ++ Nat.repr uid.toNat).toList ++
    (mount.gid.map fun gid => "gid=" ++ Nat.repr gid.toNat).toList ++
    (mount.mode.map fun mode => "mode=" ++ Text.paddedDigits 8 4 mode.toNat).toList ++
    (mount.source.map fun source => "source=" ++ source).toList

/-- The text of a mount, as it follows the mount flag. -/
def text (mount : CacheMount) : String :=
  ",".intercalate mount.pieces

end CacheMount

/-! ## Stable ids -/

/-- The first eight hexadecimal digits of a text's digest. -/
def shortDigest (text : String) : List Char :=
  (Digest.sha256Hex (Text.encode text)).take 8

/-- The stable id of a cache: the short digests of the directory's text and of the target, with a
dash between them. -/
def cacheId (directory : HostPath) (target : String) : String :=
  String.ofList (shortDigest directory.display ++ '-' :: shortDigest target)

/-- The mount with the stable id that belongs to its target in a directory. -/
def CacheMount.withStableId (mount : CacheMount) (directory : HostPath) : CacheMount :=
  { mount with id := some (cacheId directory mount.target) }

end StageManifest
