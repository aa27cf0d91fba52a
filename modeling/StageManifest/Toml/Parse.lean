import StageManifest.Toml.Decode
import StageManifest.Toml.Document

/-!
# From text to data

A text is read as a document and then fitted to a schema; the answer says
whether the text is no document or a value of it does not fit.
-/

set_option autoImplicit false

namespace StageManifest.Toml

/-- What a text holds, by a decoder of documents. -/
def parseAs {α : Type} (decode : Value → Decoded α) (text : String) : Except DocumentFault α :=
  match readDocument text with
  | none => .error .malformed
  | some entries =>
      match decode (.table entries) with
      | .error error => .error (.unfit error.mismatch)
      | .ok decoded => .ok decoded

/-- The data of a text. -/
def parse (text : String) : Except DocumentFault Value :=
  parseAs (decodeData .loose) text

end StageManifest.Toml
