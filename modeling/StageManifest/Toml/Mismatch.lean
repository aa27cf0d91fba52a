import StageManifest.Text.Quoted
import StageManifest.Toml.Value

/-!
# Why a value does not fit

The ways in which a value of a document can fail to be what a schema asks for,
and the message of each.
-/

set_option autoImplicit false

namespace StageManifest.Toml

/-- What was found in place of what was expected. -/
inductive Found where
  | string (text : String)
  | integer (number : Int)
  | float (number : Binary64)
  | boolean (truth : Bool)
  | map
  | sequence
  /-- A case without a payload where one with a payload was expected. -/
  | bareCase
deriving DecidableEq, Repr

/-- The text of what was found. -/
def Found.text : Found → String
  | .string text => "string " ++ Text.quoted text
  | .integer number => "integer `" ++ number.repr ++ "`"
  | .float number => "floating point `" ++ number.text "NaN" ++ "`"
  | .boolean truth => "boolean `" ++ (if truth then "true" else "false") ++ "`"
  | .map => "map"
  | .sequence => "sequence"
  | .bareCase => "unit variant"

/-- A way in which a value fails to fit. -/
inductive Mismatch where
  | wrongType (found : Found) (expected : String)
  | outOfRange (number : Int) (expected : String)
  | wrongLength (length : Nat) (expected : String)
  | unknownField (field : String) (fields : List String)
  | unknownCase (case : String) (cases : List String)
  | missingField (field : String)
  /-- No reading of a value that can be read in several ways fits. -/
  | noReading (type : String)
  | noEntry
  | severalEntries
  | notACase
  /-- The payload of a case that has none is an array with items. -/
  | arrayPayload
  /-- The payload of a case that has none is a table with entries, or is read like one. -/
  | tablePayload
  /-- The payload of a case that has none is neither an array nor a table. -/
  | scalarPayload (type : String)
  | notADate (fault : DateFault)
deriving DecidableEq, Repr

/-- The names of fields or cases as alternatives. -/
def alternatives (names : List String) : String :=
  let shown := names.map fun name => "`" ++ name ++ "`"
  match shown with
  | [first, second] => first ++ " or " ++ second
  | [only] => only
  | _ => "one of " ++ ", ".intercalate shown

/-- The message of a mismatch. -/
def Mismatch.message : Mismatch → String
  | .wrongType found expected => "invalid type: " ++ found.text ++ ", expected " ++ expected
  | .outOfRange number expected =>
      "invalid value: integer `" ++ number.repr ++ "`, expected " ++ expected
  | .wrongLength length expected =>
      "invalid length " ++ Nat.repr length ++ ", expected " ++ expected
  | .unknownField field fields =>
      "unknown field `" ++ field ++ "`, expected " ++ alternatives fields
  | .unknownCase case cases =>
      "unknown variant `" ++ case ++ "`, expected " ++ alternatives cases
  | .missingField field => "missing field `" ++ field ++ "`"
  | .noReading type => "data did not match any variant of untagged enum " ++ type
  | .noEntry => "wanted exactly 1 element, found 0 elements"
  | .severalEntries => "wanted exactly 1 element, more than 1 element"
  | .notACase => "wanted string or table"
  | .arrayPayload => "expected empty array"
  | .tablePayload => "expected empty table"
  | .scalarPayload type => "expected table, found " ++ type
  | .notADate fault => fault.message

/-- A mismatch and the keys that lead to it. -/
structure DecodeError where
  mismatch : Mismatch
  keys : List String := []
deriving DecidableEq, Repr

/-- The error as seen from the table that has the value under a key. -/
def DecodeError.under (error : DecodeError) (key : String) : DecodeError :=
  { error with keys := key :: error.keys }

/-- What is wrong with a document. -/
inductive DocumentFault where
  | malformed
  | unfit (mismatch : Mismatch)
  | unfitMerged (error : DecodeError)
  | broken (rule : String)
deriving DecidableEq, Repr

/-- The words that begin the message about a faulty place of a document. -/
def placeMessage : String := "TOML parse error"

/-- The message about a document; of the place in the document only the beginning is given. -/
def DocumentFault.message : DocumentFault → String
  | .malformed => placeMessage
  | .unfit mismatch => placeMessage ++ "\n" ++ mismatch.message ++ "\n"
  | .unfitMerged error =>
      error.mismatch.message ++ "\n" ++
        (if error.keys.isEmpty then "" else "in `" ++ ".".intercalate error.keys ++ "`\n")
  | .broken rule => rule

end StageManifest.Toml
