import StageManifest.Toml.Quote
import StageManifest.Toml.Value

/-!
# Written values and documents

A value is written as an expression on one line, or, in the spacious layout,
with every array of two or more items spread over lines.  A document writes the
plain entries of a table first and then a section for every table and every item
of an array that holds tables only.  Apart from that the order of the entries
stays.
-/

set_option autoImplicit false

namespace StageManifest.Toml

/-- How arrays are laid out. -/
inductive Layout where
  | compact
  | spacious
deriving DecidableEq, Repr

/-- Whether a value is written as sections of its own in a document. -/
def isSection : Value → Bool
  | .table _ => true
  | .array _ items => !items.isEmpty && items.all Value.isTable
  | _ => false

/-! ## Values -/

/-- The text of an array with the given items. -/
def arrayText (layout : Layout) (items : List String) : String :=
  if layout = .spacious && 2 ≤ items.length then
    "[" ++ String.join (items.map fun item => "\n    " ++ item ++ ",") ++ "\n]"
  else "[" ++ ", ".intercalate items ++ "]"

/-- The text of an inline table with the given pairs. -/
def inlineTableText (pairs : List String) : String :=
  if pairs.isEmpty then "\x7b\x7d" else "\x7b " ++ ", ".intercalate pairs ++ " \x7d"

/-- The text of a truth value. -/
def booleanText (truth : Bool) : String :=
  if truth then "true" else "false"

mutual
/-- The expression of a value. -/
def valueText (layout : Layout) : Value → String
  | .string text => quoteValue text
  | .integer number => number.toInt.repr
  | .float number => number.text "nan"
  | .boolean truth => booleanText truth
  | .datetime moment => moment.text
  | .array _ items => arrayText layout (itemTexts layout items)
  | .table entries => inlineTableText (pairTexts layout entries)

/-- The expressions of items. -/
def itemTexts (layout : Layout) : List Value → List String
  | [] => []
  | item :: rest => valueText layout item :: itemTexts layout rest

/-- The pairs of entries. -/
def pairTexts (layout : Layout) : List (String × Value) → List String
  | [] => []
  | (key, value) :: rest =>
      (quoteKey key ++ " = " ++ valueText layout value) :: pairTexts layout rest
end

/-! ## Documents -/

/-- The key of a section. -/
def pathText (path : List String) : String :=
  ".".intercalate (path.map quoteKey)

/-- The lines of the entries that are no sections. -/
def bodyText (layout : Layout) (entries : List (String × Value)) : String :=
  let plain := entries.filter fun (_, value) => !isSection value
  String.join ((pairTexts layout plain).map (· ++ "\n"))

/-- The block of a table's section; it is left out if it would hold nothing but the header of a
table that has sections below it. -/
def tableBlock (layout : Layout) (path : List String) (entries : List (String × Value)) :
    List String :=
  let body := bodyText layout entries
  if body.isEmpty && !entries.isEmpty then []
  else ["[" ++ pathText path ++ "]\n" ++ body]

/-- The block of an item of an array of tables. -/
def itemBlock (layout : Layout) (path : List String) (entries : List (String × Value)) :
    List String :=
  ["[[" ++ pathText path ++ "]]\n" ++ bodyText layout entries]

mutual
/-- The blocks of a value that is written as sections. -/
def sectionBlocks (layout : Layout) (path : List String) : Value → List String
  | .table entries =>
      tableBlock layout path entries ++ entryBlocks layout path entries
  | .array _ items => itemBlocks layout path items
  | _ => []

/-- The blocks of the items of an array of tables. -/
def itemBlocks (layout : Layout) (path : List String) : List Value → List String
  | [] => []
  | .table entries :: rest =>
      itemBlock layout path entries ++ entryBlocks layout path entries ++
        itemBlocks layout path rest
  | _ :: rest => itemBlocks layout path rest

/-- The blocks of the entries of a table that are sections. -/
def entryBlocks (layout : Layout) (path : List String) : List (String × Value) → List String
  | [] => []
  | (key, value) :: rest =>
      (if isSection value then sectionBlocks layout (path ++ [key]) value else []) ++
        entryBlocks layout path rest
end

/-- The document with the given entries. -/
def documentText (layout : Layout) (entries : List (String × Value)) : String :=
  let body := bodyText layout entries
  "\n".intercalate
    ((if body.isEmpty then [] else [body]) ++ entryBlocks layout [] entries)

/-- The text of a value: the document of a table, and the expression of any other value. -/
def Value.text (layout : Layout) : Value → String
  | .table entries => documentText layout entries
  | value => valueText layout value

end StageManifest.Toml
