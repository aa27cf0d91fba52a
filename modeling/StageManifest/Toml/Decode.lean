import StageManifest.Toml.Mismatch

/-!
# Fitting values to a schema

The decoders of single values and the general decoder of records.  They work in
one of two modes.  In a document, a date or time looks like a table with one
private key that holds its text; in a value merged from several documents it
looks like a string.  The modes also differ in what they say about cases and
about arrays that stand for records.

A record is given by a table, or by an array that lists its fields in order.
-/

set_option autoImplicit false

namespace StageManifest.Toml

/-- Where a value comes from. -/
inductive Mode where
  | document
  | merged
deriving DecidableEq, Repr

/-- A decoded value, or why the value does not fit. -/
abbrev Decoded (α : Type) := Except DecodeError α

/-- The failure with a mismatch right here. -/
def mismatched {α : Type} (mismatch : Mismatch) : Decoded α :=
  .error { mismatch := mismatch }

/-- The key under which a date or time of a document holds its text. -/
def dateKey : String := "$__toml_private_datetime"

/-- What a value looks like in a message. -/
def Value.found (mode : Mode) : Value → Found
  | .string text => .string text
  | .integer number => .integer number.toInt
  | .float number => .float number
  | .boolean truth => .boolean truth
  | .datetime moment =>
      match mode with
      | .document => .map
      | .merged => .string moment.text
  | .array _ _ => .sequence
  | .table _ => .map

/-- The failure of a value that has the wrong type. -/
def wrongType {α : Type} (mode : Mode) (value : Value) (expected : String) : Decoded α :=
  mismatched (.wrongType (value.found mode) expected)

/-- The name of a value's type. -/
def Value.typeName : Value → String
  | .string _ => "string"
  | .integer _ => "integer"
  | .float _ => "float"
  | .boolean _ => "boolean"
  | .datetime _ => "datetime"
  | .array _ _ => "array"
  | .table _ => "table"

/-! ## Plain values -/

/-- A string. -/
def decodeString (mode : Mode) : Value → Decoded String
  | .string text => .ok text
  | .datetime moment =>
      match mode with
      | .merged => .ok moment.text
      | .document => wrongType mode (.datetime moment) "a string"
  | value => wrongType mode value "a string"

/-- A truth value. -/
def decodeBoolean (mode : Mode) : Value → Decoded Bool
  | .boolean truth => .ok truth
  | value => wrongType mode value "a boolean"

/-- An integer from zero up to a limit. -/
def decodeNatural (mode : Mode) (limit : Nat) (expected : String) : Value → Decoded Nat
  | .integer number =>
      if 0 ≤ number.toInt && number.toInt < limit then .ok number.toInt.toNat
      else mismatched (.outOfRange number.toInt expected)
  | value => wrongType mode value expected

/-- An unsigned integer of 16 bits. -/
def decodeUInt16 (mode : Mode) (value : Value) : Decoded UInt16 :=
  (decodeNatural mode 65536 "u16" value).map UInt16.ofNat

/-- An unsigned integer of 32 bits. -/
def decodeUInt32 (mode : Mode) (value : Value) : Decoded UInt32 :=
  (decodeNatural mode 4294967296 "u32" value).map UInt32.ofNat

/-- An array, each item decoded. -/
def decodeArray {α : Type} (mode : Mode) (item : Value → Decoded α) : Value → Decoded (List α)
  | .array _ items => items.mapM item
  | value => wrongType mode value "a sequence"

/-- Entries decoded under their keys. -/
def decodeEntries {α : Type} (entry : Value → Decoded α) :
    List (String × Value) → Decoded (List (String × α))
  | [] => .ok []
  | (key, value) :: rest =>
      match entry value with
      | .error error => .error (error.under key)
      | .ok decoded => (decodeEntries entry rest).map ((key, decoded) :: ·)

/-- A table with keys of its own choice, each entry decoded. -/
def decodeMap {α : Type} (mode : Mode) (entry : Value → Decoded α) :
    Value → Decoded (List (String × α))
  | .table entries => decodeEntries entry entries
  | .datetime moment =>
      match mode with
      | .document => decodeEntries entry [(dateKey, .string moment.text)]
      | .merged => wrongType mode (.datetime moment) "a map"
  | value => wrongType mode value "a map"

/-! ## Records -/

/-- A field of a record under construction. -/
structure ShapeField (σ : Type) where
  name : String
  optional : Bool
  assign : Value → σ → Decoded σ

/-- The schema of a record. -/
structure Shape (σ : Type) where
  name : String
  fields : List (ShapeField σ)
  strict : Bool

namespace Shape

variable {σ : Type}

/-- Puts the entries of a table into a record. -/
def ofEntries (shape : Shape σ) : List (String × Value) → σ → Decoded σ
  | [], record => .ok record
  | (key, value) :: rest, record =>
      match shape.fields.find? fun field => field.name == key with
      | none =>
          if shape.strict then
            mismatched (.unknownField key (shape.fields.map (·.name)))
          else shape.ofEntries rest record
      | some field =>
          match field.assign value record with
          | .error error => .error (error.under key)
          | .ok changed => shape.ofEntries rest changed

/-- Puts the items of an array into a record, field by field; the answer also says how many items
were left over. -/
def ofItems (shape : Shape σ) (position : Nat) :
    List (ShapeField σ) → List Value → σ → Decoded (σ × Nat)
  | [], items, record => .ok (record, items.length)
  | field :: fields, item :: items, record =>
      match field.assign item record with
      | .error error => .error error
      | .ok changed => shape.ofItems (position + 1) fields items changed
  | field :: fields, [], record =>
      if field.optional then shape.ofItems (position + 1) fields [] record
      else
        mismatched (.wrongLength position
          ("struct " ++ shape.name ++ " with " ++ Nat.repr shape.fields.length ++ " elements"))

/-- Puts a value into a record that already holds what applies if the value says nothing. -/
def decode (shape : Shape σ) (mode : Mode) (start : σ) : Value → Decoded σ
  | .table entries => shape.ofEntries entries start
  | .array _ items => do
      let (record, left) ← shape.ofItems 0 shape.fields items start
      if mode = .merged && left ≠ 0 then
        mismatched (.wrongLength items.length "fewer elements in array")
      else return record
  | .datetime moment =>
      match mode with
      | .document => shape.ofEntries [(dateKey, .string moment.text)] start
      | .merged => wrongType mode (.datetime moment) ("struct " ++ shape.name)
  | value => wrongType mode value ("struct " ++ shape.name)

end Shape

/-- The value of a field that has to be there. -/
def requireField {α : Type} (name : String) : Option α → Decoded α
  | some value => .ok value
  | none => mismatched (.missingField name)

/-! ## Cases -/

/-- A case and its payload, if it has one. -/
def decodeCase (mode : Mode) : Value → Decoded (String × Option Value)
  | .string text => .ok (text, none)
  | .table [] => mismatched .noEntry
  | .table [(key, value)] => .ok (key, some value)
  | .table _ => mismatched .severalEntries
  | _ =>
      match mode with
      | .document => mismatched .notACase
      | .merged => mismatched (.wrongType .bareCase "string only")

/-- The payload of a case that has none is absent or empty. -/
def decodeNoPayload (mode : Mode) : Option Value → Decoded Unit
  | none => .ok ()
  | some (.table entries) => if entries.isEmpty then .ok () else mismatched .tablePayload
  | some (.array form items) =>
      if items.isEmpty then .ok ()
      else if mode = .document && form = .brackets then mismatched .tablePayload
      else mismatched .arrayPayload
  | some value => mismatched (.scalarPayload value.typeName)

/-- The payload of a case that has one. -/
def decodePayload {α : Type} (payload : Value → Decoded α) : Option Value → Decoded α
  | none => mismatched (.wrongType .bareCase "newtype variant")
  | some value => payload value

/-- One of several cases without payloads. -/
def decodeChoice {α : Type} (mode : Mode) (cases : List (String × α)) (value : Value) :
    Decoded α := do
  let (case, payload) ← decodeCase mode value
  match cases.lookup case with
  | none => mismatched (.unknownCase case (cases.map (·.1)))
  | some choice => do
      decodeNoPayload mode payload
      return choice

/-! ## Values as data -/

/-- What may stand beside the private key of dates in a table that holds a date or time. -/
inductive DateTable where
  | loose
  | closed
deriving DecidableEq, Repr

/-- The date or time whose text a value holds. -/
def decodeDate : Value → Decoded DateTime
  | .string text =>
      match DateTime.read text.toList with
      | .ok moment => .ok moment
      | .error fault => mismatched (.notADate fault)
  | value => wrongType .document value "string containing a datetime"

mutual
/-- A value as data: a table whose first key is the private key of dates is the date or time that
it holds the text of, all entries are in rising order, and all arrays have brackets. -/
def decodeData (dates : DateTable) : Value → Decoded Value
  | .array _ items => (decodeDataItems dates items).map (.array .brackets)
  | .table ((key, value) :: rest) =>
      if key = dateKey then do
        let moment ← decodeDate value
        if dates = .closed && !rest.isEmpty then
          mismatched (.wrongLength (rest.length + 1) "1 element in map")
        else return .datetime moment
      else do
        let first ← decodeData dates value
        let others ← decodeDataEntries dates rest
        return .table (Value.sortEntries ((key, first) :: others))
  | value => .ok value

/-- Items as data. -/
def decodeDataItems (dates : DateTable) : List Value → Decoded (List Value)
  | [] => .ok []
  | item :: rest => do
      let first ← decodeData dates item
      let others ← decodeDataItems dates rest
      return first :: others

/-- Entries as data. -/
def decodeDataEntries (dates : DateTable) : List (String × Value) → Decoded (List (String × Value))
  | [] => .ok []
  | (key, value) :: rest => do
      let first ← decodeData dates value
      let others ← decodeDataEntries dates rest
      return (key, first) :: others
end

end StageManifest.Toml
