import StageManifest.Toml.Draft
import StageManifest.Toml.Scalar
import StageManifest.Toml.Unquote

/-!
# Reading documents

A document is a sequence of pairs and table headers, one on a line, with blank
lines and comments between them.  The answer is the table of its entries in the
order in which they are written, or nothing if the text is not a document.

Values nest at most 79 deep and a key has at most 79 parts.
-/

set_option autoImplicit false

namespace StageManifest.Toml

/-- How deep values may nest, and how many parts a key may have. -/
def nestingLimit : Nat := 79

/-! ## Between the tokens -/

/-- The text behind spaces and tabs. -/
def skipBlank (text : List Char) : List Char :=
  text.dropWhile fun character => character == ' ' || character == '\t'

/-- The text behind a comment, if one starts here. -/
def skipComment : List Char → List Char
  | '#' :: rest => rest.dropWhile isPlainCharacter
  | text => text

/-- Reads the end of a line: spaces and a comment, then a line ending or the end of the text. -/
def readLineEnd (text : List Char) : Option (List Char) :=
  match skipComment (skipBlank text) with
  | [] => some []
  | '\n' :: rest => some rest
  | '\r' :: '\n' :: rest => some rest
  | _ => none

/-- The text behind spaces, line endings and comments; a comment may be open before it. -/
def skipTrivia : (inComment : Bool) → List Char → List Char
  | _, [] => []
  | _, '\n' :: rest => skipTrivia false rest
  | _, '\r' :: '\n' :: rest => skipTrivia false rest
  | true, character :: rest =>
      if isPlainCharacter character then skipTrivia true rest else character :: rest
  | false, character :: rest =>
      if character = ' ' || character = '\t' then skipTrivia false rest
      else if character = '#' then skipTrivia true rest
      else character :: rest

/-! ## Keys -/

/-- Reads a key of at most the given number of parts, with the blanks around it. -/
def readKeyParts : (limit : Nat) → List Char → Option (List String × List Char)
  | 0, _ => none
  | limit + 1, text => do
      let (part, rest) ← readSimpleKey (skipBlank text)
      match skipBlank rest with
      | '.' :: more =>
          (readKeyParts limit more).map fun (parts, rest) => (String.ofList part :: parts, rest)
      | rest => some ([String.ofList part], rest)

/-- Reads a key with the blanks around it. -/
def readKey (text : List Char) : Option (List String × List Char) :=
  readKeyParts nestingLimit text

/-! ## Values -/

mutual
/-- Reads a value; arrays and inline tables may nest so deep in it. -/
def readValue : (fuel nesting : Nat) → List Char → Option (Value × List Char)
  | 0, _, _ => none
  | fuel + 1, nesting, text =>
      match text with
      | '[' :: rest =>
          match nesting with
          | 0 => none
          | nesting + 1 =>
              (readItems fuel nesting rest).map fun (items, rest) => (.array .brackets items, rest)
      | '{' :: rest =>
          match nesting with
          | 0 => none
          | nesting + 1 => do
              let (pairs, rest) ←
                match skipBlank rest with
                | '}' :: more => some ([], more)
                | start => readPairs fuel nesting start
              let table ← inlineTable? pairs
              return (table, rest)
      | '"' :: _ => (readString text).map fun (content, rest) => (.string (.ofList content), rest)
      | '\x27' :: _ =>
          (readString text).map fun (content, rest) => (.string (.ofList content), rest)
      | _ => readScalar? text

/-- Reads the items of an array up to its closing bracket. -/
def readItems : (fuel nesting : Nat) → List Char → Option (List Value × List Char)
  | 0, _, _ => none
  | fuel + 1, nesting, text =>
      match skipTrivia false text with
      | ']' :: rest => some ([], rest)
      | start => do
          let (item, rest) ← readValue fuel nesting start
          match skipTrivia false rest with
          | ',' :: more =>
              (readItems fuel nesting more).map fun (items, rest) => (item :: items, rest)
          | ']' :: more => some ([item], more)
          | _ => none

/-- Reads the pairs of an inline table up to its closing brace. -/
def readPairs : (fuel nesting : Nat) → List Char → Option (List (List String × Value) × List Char)
  | 0, _, _ => none
  | fuel + 1, nesting, text => do
      let (key, rest) ← readKey text
      match rest with
      | '=' :: more => do
          let (value, rest) ← readValue fuel nesting (skipBlank more)
          match skipBlank rest with
          | ',' :: more =>
              (readPairs fuel nesting more).map fun (pairs, rest) => ((key, value) :: pairs, rest)
          | '}' :: more => some ([(key, value)], more)
          | _ => none
      | _ => none
end

/-- Reads a value; every step takes a character or goes one level down. -/
def readWholeValue (text : List Char) : Option (Value × List Char) :=
  readValue (2 * text.length + 2) nestingLimit text

/-! ## Statements -/

/-- Reads a pair up to the end of its line. -/
def readPair (text : List Char) : Option ((List String × Value) × List Char) := do
  let (key, rest) ← readKey text
  match rest with
  | '=' :: more => do
      let (value, rest) ← readWholeValue (skipBlank more)
      let rest ← readLineEnd rest
      return ((key, value), rest)
  | _ => none

/-- Reads the header of a table behind its opening bracket, up to the end of its line. -/
def readTableHeader (text : List Char) : Option (List String × List Char) := do
  let (key, rest) ← readKey text
  match rest with
  | ']' :: more => do
      let rest ← readLineEnd more
      return (key, rest)
  | _ => none

/-- Reads the header of an item behind its opening brackets, up to the end of its line. -/
def readItemHeader (text : List Char) : Option (List String × List Char) := do
  let (key, rest) ← readKey text
  match rest with
  | ']' :: ']' :: more => do
      let rest ← readLineEnd more
      return (key, rest)
  | _ => none

/-- Reads statements to the end of the text; every one takes a character at least. -/
def readStatements : (fuel : Nat) → Building → List Char → Option Building
  | 0, _, _ => none
  | fuel + 1, building, text =>
      match skipBlank text with
      | [] => some building
      | '#' :: rest => do
          let rest ← readLineEnd ('#' :: rest)
          readStatements fuel building rest
      | '\n' :: rest => readStatements fuel building rest
      | '\r' :: '\n' :: rest => readStatements fuel building rest
      | '[' :: '[' :: rest => do
          let (key, rest) ← readItemHeader rest
          let building ← building.openItem key
          readStatements fuel building rest
      | '[' :: rest => do
          let (key, rest) ← readTableHeader rest
          let building ← building.openTable key
          readStatements fuel building rest
      | start => do
          let ((key, value), rest) ← readPair start
          let building ← building.addPair key value
          readStatements fuel building rest

/-- The text without the mark that may stand before a document in UTF-8. -/
def dropByteOrderMark : List Char → List Char
  | '\ufeff' :: rest => rest
  | text => text

/-- The entries of a document in the order in which they are written. -/
def readDocument (text : String) : Option (List (String × Value)) :=
  let characters := dropByteOrderMark text.toList
  (readStatements (characters.length + 1) .start characters).bind Building.finish

end StageManifest.Toml
