import StageManifest.Text.Digits

/-!
# JSON strings and arrays of strings

Exec-form commands are written as compact JSON arrays of strings.  A string
escapes the quote, the backslash and the control characters below U+0020; the
five that have a letter use it, the others are written as `\u00xx` with lower
case digits.  Every other character stands for itself.
-/

set_option autoImplicit false

namespace StageManifest.Text

/-- A character inside a JSON string. -/
def jsonCharacter (character : Char) : List Char :=
  match character with
  | '"' => ['\\', '"']
  | '\\' => ['\\', '\\']
  | '\n' => ['\\', 'n']
  | '\r' => ['\\', 'r']
  | '\t' => ['\\', 't']
  | _ =>
      if character.toNat = 8 then ['\\', 'b']
      else if character.toNat = 12 then ['\\', 'f']
      else if character.toNat < 0x20 then
        ['\\', 'u', '0', '0', hexDigit (character.toNat / 16), hexDigit (character.toNat % 16)]
      else [character]

/-- A JSON string, quotes included. -/
def jsonString (text : String) : String :=
  "\"" ++ String.ofList (text.toList.flatMap jsonCharacter) ++ "\""

/-- A compact JSON array of strings. -/
def jsonArray (items : List String) : String :=
  "[" ++ ",".intercalate (items.map jsonString) ++ "]"

end StageManifest.Text
