/-!
# Digits

Numbers in hexadecimal and octal notation with a least number of digits, and
the reading of decimal numbers.
-/

set_option autoImplicit false

namespace StageManifest.Text

/-- The lower case hexadecimal digit of a value below sixteen. -/
def hexDigit (value : Nat) : Char :=
  if value < 10 then Char.ofNat (48 + value) else Char.ofNat (87 + value)

/-- The upper case hexadecimal digit of a value below sixteen. -/
def upperHexDigit (value : Nat) : Char :=
  if value < 10 then Char.ofNat (48 + value) else Char.ofNat (55 + value)

/-- The last digits of a number in hexadecimal, exactly as many as asked for. -/
def hexDigits : (count : Nat) → (value : Nat) → List Char
  | 0, _ => []
  | count + 1, value => hexDigits count (value / 16) ++ [hexDigit (value % 16)]

/-- The given digits with zeros before them up to a width. -/
def zeroPadded (width : Nat) (digits : List Char) : List Char :=
  List.replicate (width - digits.length) '0' ++ digits

/-- A number in a base, with zeros before it up to a width. -/
def paddedDigits (base width value : Nat) : String :=
  String.ofList (zeroPadded width (Nat.toDigits base value))

/-- The value of a digit in a base of at most sixteen, if the character is one. -/
def digitValue? (base : Nat) (character : Char) : Option Nat :=
  let value :=
    if '0' ≤ character && character ≤ '9' then some (character.toNat - 48)
    else if 'a' ≤ character && character ≤ 'f' then some (character.toNat - 87)
    else if 'A' ≤ character && character ≤ 'F' then some (character.toNat - 55)
    else none
  value.filter (· < base)

/-- The number written by digits of a base, read from the left onto a start value. -/
def digitsValue (base : Nat) : (start : Nat) → List Char → Option Nat
  | start, [] => some start
  | start, character :: rest =>
      match digitValue? base character with
      | some value => digitsValue base (start * base + value) rest
      | none => none

/-- The unsigned decimal number written by a text, if it is one below the limit: at least one
digit and optionally a plus sign before them. -/
def decimalBelow? (limit : Nat) (text : List Char) : Option Nat :=
  let digits := match text with
    | '+' :: rest => rest
    | _ => text
  if digits.isEmpty then none else (digitsValue 10 0 digits).filter (· < limit)

/-- As many digits are written as were asked for. -/
theorem length_hexDigits (count value : Nat) : (hexDigits count value).length = count := by
  induction count generalizing value with
  | zero => rfl
  | succ count ih => simp [hexDigits, ih]

end StageManifest.Text
