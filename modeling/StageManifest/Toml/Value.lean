import StageManifest.Number.Binary64
import StageManifest.Toml.DateTime

/-!
# TOML values

A value is text, a number, a truth value, a date or time, an array or a table.
A table lists its entries; a document lists them in the order in which they are
written, and data in rising order of the keys.  A document also knows how its
arrays are written; the arrays of data all have brackets.
-/

set_option autoImplicit false

namespace StageManifest.Toml

/-- How an array is written. -/
inductive ArrayForm where
  | brackets
  | headers
deriving DecidableEq, Repr

/-- A value of a document. -/
inductive Value where
  | string (text : String)
  | integer (number : Int64)
  | float (number : Binary64)
  | boolean (truth : Bool)
  | datetime (moment : DateTime)
  | array (form : ArrayForm) (items : List Value)
  | table (entries : List (String × Value))

namespace Value

/-- The table without entries. -/
def emptyTable : Value := .table []

/-- Whether a value is a table. -/
def isTable : Value → Bool
  | .table _ => true
  | _ => false

/-- Puts an entry into its place among entries in rising order; it replaces one with its key. -/
def insertEntry (key : String) (value : Value) : List (String × Value) → List (String × Value)
  | [] => [(key, value)]
  | entry :: rest =>
      if key < entry.1 then (key, value) :: entry :: rest
      else if entry.1 < key then entry :: insertEntry key value rest
      else (key, value) :: rest

/-- The entries in rising order of their keys. -/
def sortEntries (entries : List (String × Value)) : List (String × Value) :=
  entries.foldr (fun entry sorted => insertEntry entry.1 entry.2 sorted) []

end Value

end StageManifest.Toml
