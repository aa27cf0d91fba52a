import StageManifest.Text.Utf8

/-!
# Paths on the host

A path of the machine that runs the build is a list of bytes, which need not be
UTF-8.  Wherever such a path is written, it is written as the text of its
bytes.
-/

set_option autoImplicit false

namespace StageManifest

/-- A path on the host. -/
structure HostPath where
  bytes : List UInt8
deriving DecidableEq, Repr

namespace HostPath

/-- The path whose bytes are a text in UTF-8. -/
def ofText (text : String) : HostPath := ⟨Text.encode text⟩

/-- The text of the path, with U+FFFD where its bytes are not UTF-8. -/
def display (path : HostPath) : String := Text.decodeLossy path.bytes

end HostPath

end StageManifest
