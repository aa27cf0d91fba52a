import StageManifest.Text.Digits
import StageManifest.Toml.Quote

/-!
# Reading strings and keys

The four kinds of quoted strings.  Each reader takes the text after the opening
quotes and answers the content and what follows the closing quotes.
-/

set_option autoImplicit false

namespace StageManifest.Toml

/-- Puts a character before the content that was read. -/
def prepend (character : Char) (reading : Option (List Char × List Char)) :
    Option (List Char × List Char) :=
  reading.map fun (content, rest) => (character :: content, rest)

/-! ## Characters -/

/-- Whether a character may stand in a string or a comment as it is. -/
def isPlainCharacter (character : Char) : Bool :=
  character = '\t' || (0x20 ≤ character.toNat && character.toNat != 0x7F)

/-- The character that an escape letter stands for. -/
def escapeLetter? (letter : Char) : Option Char :=
  match letter with
  | 'b' => some '\x08'
  | 't' => some '\t'
  | 'n' => some '\n'
  | 'f' => some '\x0c'
  | 'r' => some '\r'
  | '"' => some '"'
  | '\\' => some '\\'
  | _ => none

/-- The character with the code point that hexadecimal digits write; surrogates have none. -/
def codePoint? (digits : List Char) : Option Char :=
  (Text.digitsValue 16 0 digits).bind fun code =>
    if code < 0xD800 || (0xDFFF < code && code < 0x110000) then some (Char.ofNat code) else none

/-! ## Strings on one line -/

/-- Reads up to the closing double quote. -/
def readBasic : List Char → Option (List Char × List Char)
  | [] => none
  | '"' :: rest => some ([], rest)
  | '\\' :: 'u' :: a :: b :: c :: d :: rest =>
      (codePoint? [a, b, c, d]).bind fun character => prepend character (readBasic rest)
  | '\\' :: 'U' :: a :: b :: c :: d :: e :: f :: g :: h :: rest =>
      (codePoint? [a, b, c, d, e, f, g, h]).bind fun character =>
        prepend character (readBasic rest)
  | '\\' :: letter :: rest =>
      (escapeLetter? letter).bind fun character => prepend character (readBasic rest)
  | character :: rest =>
      if isPlainCharacter character && character != '\\' then prepend character (readBasic rest)
      else none

/-- Reads up to the closing single quote. -/
def readLiteral : List Char → Option (List Char × List Char)
  | [] => none
  | '\x27' :: rest => some ([], rest)
  | character :: rest =>
      if isPlainCharacter character then prepend character (readLiteral rest) else none

/-! ## Strings that span lines -/

/-- Drops the line ending directly after the opening quotes. -/
def dropFirstLineEnd : List Char → List Char
  | '\n' :: rest => rest
  | '\r' :: '\n' :: rest => rest
  | rest => rest

/-- Where a reader of a string that spans lines stands. -/
inductive Folding where
  | content
  | beforeLineEnd
  /-- Behind a line end that a backslash folds away, before the next character that counts. -/
  | afterLineEnd
deriving DecidableEq, Repr

/-- Reads up to the closing three double quotes; up to two more before them belong to the text. -/
def readMultilineBasic : Folding → List Char → Option (List Char × List Char)
  | _, [] => none
  | .beforeLineEnd, '\n' :: rest => readMultilineBasic .afterLineEnd rest
  | .beforeLineEnd, '\r' :: '\n' :: rest => readMultilineBasic .afterLineEnd rest
  | .beforeLineEnd, character :: rest =>
      if character = ' ' || character = '\t' then readMultilineBasic .beforeLineEnd rest else none
  | folding, '\n' :: rest =>
      if folding = .afterLineEnd then readMultilineBasic .afterLineEnd rest
      else prepend '\n' (readMultilineBasic .content rest)
  | folding, '\r' :: '\n' :: rest =>
      if folding = .afterLineEnd then readMultilineBasic .afterLineEnd rest
      else prepend '\n' (readMultilineBasic .content rest)
  | _, '"' :: '"' :: '"' :: '"' :: '"' :: rest => some (['"', '"'], rest)
  | _, '"' :: '"' :: '"' :: '"' :: rest => some (['"'], rest)
  | _, '"' :: '"' :: '"' :: rest => some ([], rest)
  | _, '\\' :: 'u' :: a :: b :: c :: d :: rest =>
      (codePoint? [a, b, c, d]).bind fun character =>
        prepend character (readMultilineBasic .content rest)
  | _, '\\' :: 'U' :: a :: b :: c :: d :: e :: f :: g :: h :: rest =>
      (codePoint? [a, b, c, d, e, f, g, h]).bind fun character =>
        prepend character (readMultilineBasic .content rest)
  | _, '\\' :: letter :: rest =>
      match escapeLetter? letter with
      | some character => prepend character (readMultilineBasic .content rest)
      | none =>
          if letter = '\n' then readMultilineBasic .afterLineEnd rest
          else if letter = ' ' || letter = '\t' then readMultilineBasic .beforeLineEnd rest
          else
            match letter, rest with
            | '\r', '\n' :: more => readMultilineBasic .afterLineEnd more
            | _, _ => none
  | folding, character :: rest =>
      if folding = .afterLineEnd && (character = ' ' || character = '\t') then
        readMultilineBasic .afterLineEnd rest
      else if isPlainCharacter character && character != '\\' then
        prepend character (readMultilineBasic .content rest)
      else none

/-- Reads up to the closing three single quotes; up to two more before them belong to the text. -/
def readMultilineLiteral : List Char → Option (List Char × List Char)
  | [] => none
  | '\x27' :: '\x27' :: '\x27' :: '\x27' :: '\x27' :: rest => some (['\x27', '\x27'], rest)
  | '\x27' :: '\x27' :: '\x27' :: '\x27' :: rest => some (['\x27'], rest)
  | '\x27' :: '\x27' :: '\x27' :: rest => some ([], rest)
  | '\r' :: '\n' :: rest => prepend '\n' (readMultilineLiteral rest)
  | character :: rest =>
      if isPlainCharacter character || character = '\n' then
        prepend character (readMultilineLiteral rest)
      else none

/-! ## Whole strings and keys -/

/-- Reads a string with its quotes. -/
def readString : List Char → Option (List Char × List Char)
  | '"' :: '"' :: '"' :: rest => readMultilineBasic .content (dropFirstLineEnd rest)
  | '"' :: rest => readBasic rest
  | '\x27' :: '\x27' :: '\x27' :: rest => readMultilineLiteral (dropFirstLineEnd rest)
  | '\x27' :: rest => readLiteral rest
  | _ => none

/-- Reads a key without dots: quoted on one line, or bare. -/
def readSimpleKey : List Char → Option (List Char × List Char)
  | '"' :: rest => readBasic rest
  | '\x27' :: rest => readLiteral rest
  | text =>
      let key := text.takeWhile isBareKeyCharacter
      if key.isEmpty then none else some (key, text.dropWhile isBareKeyCharacter)

end StageManifest.Toml
