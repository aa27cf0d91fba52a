import StageManifest.Text.Digits

/-!
# Written strings and keys

A string is written in the first of four forms that can hold it with nothing
escaped but tabs: between double quotes, between single quotes, between three
double and between three single quotes.  If none of them can, it is written
between double quotes, three if it has line feeds, with escapes.  The forms with
three quotes may span lines; text with line feeds starts on a line of its own
there.
-/

set_option autoImplicit false

namespace StageManifest.Toml

/-! ## What a text contains -/

/-- Whether a character can only be written by an escape; a line feed is not counted here. -/
def needsEscape (character : Char) : Bool :=
  (character.toNat < 0x20 && character != '\t' && character != '\n') || character.toNat == 0x7F

/-- The length of the longest run of a character, given the length of the run before the text. -/
def longestRun (wanted : Char) : (run : Nat) → List Char → Nat
  | run, [] => run
  | run, character :: rest =>
      if character = wanted then longestRun wanted (run + 1) rest
      else max run (longestRun wanted 0 rest)

/-- The ways to write a string. -/
inductive QuoteForm where
  | basic
  | literal
  | multilineBasic
  | multilineLiteral
deriving DecidableEq, Repr

/-- The form in which a value is written. -/
def valueForm (text : List Char) : QuoteForm :=
  let controls := text.any needsEscape
  let lineFeeds := text.contains '\n'
  let backslashes := text.contains '\\'
  let doubles := longestRun '"' 0 text
  let singles := longestRun '\x27' 0 text
  if !controls && !backslashes && doubles == 0 && !lineFeeds then .basic
  else if !controls && singles == 0 && !lineFeeds then .literal
  else if !controls && !backslashes && doubles ≤ 2 then .multilineBasic
  else if !controls && singles ≤ 2 then .multilineLiteral
  else if lineFeeds then .multilineBasic
  else .basic

/-! ## Escapes -/

/-- The escape of a character by the last four hexadecimal digits of its code point. -/
def codePointEscape (character : Char) : List Char :=
  '\\' :: 'u' :: [4096, 256, 16, 1].map fun unit =>
    Text.upperHexDigit (character.toNat / unit % 16)

/-- Text with escapes, after a run of unescaped quotes of the given length.  Up to the given number
of quotes may stand together, and a line feed stays as it is if the string may span lines. -/
def escape (multiline : Bool) (allowedQuotes : Nat) : (run : Nat) → List Char → List Char
  | _, [] => []
  | run, character :: rest =>
      if character = '"' then
        if run < allowedQuotes then '"' :: escape multiline allowedQuotes (run + 1) rest
        else '\\' :: '"' :: escape multiline allowedQuotes 0 rest
      else
        let written :=
          if character = '\\' then ['\\', '\\']
          else if character = '\t' then ['\\', 't']
          else if character = '\r' then ['\\', 'r']
          else if character = '\n' then (if multiline then ['\n'] else ['\\', 'n'])
          else if character.toNat = 8 then ['\\', 'b']
          else if character.toNat = 12 then ['\\', 'f']
          else if needsEscape character then codePointEscape character
          else [character]
        written ++ escape multiline allowedQuotes 0 rest

/-! ## Whole strings -/

/-- Three quotes, and a line feed after them if the text has line feeds. -/
def openMultiline (quote : Char) (text : List Char) : List Char :=
  [quote, quote, quote] ++ (if text.contains '\n' then ['\n'] else [])

/-- A text in the given form. -/
def quoteAs (form : QuoteForm) (text : List Char) : List Char :=
  match form with
  | .basic => '"' :: escape false 0 0 text ++ ['"']
  | .literal => '\x27' :: text ++ ['\x27']
  | .multilineBasic => openMultiline '"' text ++ escape true 2 0 text ++ ['"', '"', '"']
  | .multilineLiteral => openMultiline '\x27' text ++ text ++ ['\x27', '\x27', '\x27']

/-- A string as a value. -/
def quoteValue (text : String) : String :=
  String.ofList (quoteAs (valueForm text.toList) text.toList)

/-! ## Keys -/

/-- Whether a character may stand in a key without quotes. -/
def isBareKeyCharacter (character : Char) : Bool :=
  character.isAlphanum || character = '-' || character = '_'

/-- Whether a key is written without quotes. -/
def isBareKey (key : List Char) : Bool :=
  !key.isEmpty && key.all isBareKeyCharacter

/-- The form in which a key that needs quotes is written. -/
def keyForm (key : List Char) : QuoteForm :=
  let controls := key.any needsEscape || key.contains '\n'
  if !controls && !key.contains '\\' && !key.contains '"' then .basic
  else if !controls && !key.contains '\x27' then .literal
  else .basic

/-- A key as it is written. -/
def quoteKey (key : String) : String :=
  if isBareKey key.toList then key else String.ofList (quoteAs (keyForm key.toList) key.toList)

end StageManifest.Toml
