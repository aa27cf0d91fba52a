import StageManifest.Text.Digits
import StageManifest.Text.GraphemeExtend
import StageManifest.Text.Unprintable

/-!
# Quoted text

Text shown inside a message is put between double quotes.  The quote, the
backslash and the usual control characters are escaped by a letter; a character
that is not printed, or that would be drawn into the quote before it, is
escaped by its code point in braces.  The halfwidth sound marks extend the
character before them too, but they have a width of their own and can be read
after a quote, so they stay as they are.
-/

set_option autoImplicit false

namespace StageManifest.Text

/-- The escape of a character by its code point. -/
def codePointEscape (character : Char) : List Char :=
  ['\\', 'u', '\x7b'] ++ Nat.toDigits 16 character.toNat ++ ['\x7d']

/-- Whether a character is one of the two halfwidth sound marks, the only letters that extend the
character before them. -/
def isHalfwidthSoundMark (character : Char) : Bool :=
  character == '\uFF9E' || character == '\uFF9F'

/-- Whether a character cannot be read as itself after a quote. -/
def isHidden (character : Char) : Bool :=
  isUnprintable character || (extendsGrapheme character && !isHalfwidthSoundMark character)

/-- A character inside quoted text. -/
def quotedCharacter (character : Char) : List Char :=
  match character with
  | '"' => ['\\', '"']
  | '\\' => ['\\', '\\']
  | '\n' => ['\\', 'n']
  | '\r' => ['\\', 'r']
  | '\t' => ['\\', 't']
  | '\x00' => ['\\', '0']
  | _ => if isHidden character then codePointEscape character else [character]

/-- Text between quotes. -/
def quoted (text : String) : String :=
  "\"" ++ String.ofList (text.toList.flatMap quotedCharacter) ++ "\""

/-- A list of texts in brackets, each between quotes. -/
def quotedList (items : List String) : String :=
  "[" ++ ", ".intercalate (items.map quoted) ++ "]"

end StageManifest.Text
