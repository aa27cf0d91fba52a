import StageManifest.Toml.Value

/-!
# Plain scalars

Numbers, truth values, dates and times are written without quotes.  Each is one
run of characters that no punctuation interrupts, except that a space may stand
between a date and a time.
-/

set_option autoImplicit false

namespace StageManifest.Toml

/-- Whether a character may belong to a plain scalar. -/
def isScalarCharacter (character : Char) : Bool :=
  character.isAlphanum || character = '+' || character = '-' || character = '_' ||
    character = '.' || character = ':'

/-! ## Digits -/

/-- The digits of a text in which single underscores may stand between two digits. -/
def ungroup (isDigit : Char → Bool) : List Char → Option (List Char)
  | [] => none
  | [digit] => if isDigit digit then some [digit] else none
  | digit :: '_' :: next :: rest =>
      if isDigit digit then (ungroup isDigit (next :: rest)).map (digit :: ·) else none
  | digit :: next :: rest =>
      if isDigit digit then (ungroup isDigit (next :: rest)).map (digit :: ·) else none

/-- The sign of a number, negative or not, and what follows it. -/
def readSign : List Char → Bool × List Char
  | '-' :: rest => (true, rest)
  | '+' :: rest => (false, rest)
  | rest => (false, rest)

/-- The digits of a decimal whole part: grouped, and zero only if it is the one digit. -/
def wholeDigits? (text : List Char) : Option (List Char) :=
  match text with
  | ['0'] => some ['0']
  | '0' :: _ => none
  | _ => ungroup Char.isDigit text

/-! ## Integers -/

/-- An integer if it fits into 64 bits. -/
def int64? (number : Int) : Option Int64 :=
  if -9223372036854775808 ≤ number && number < 9223372036854775808 then
    some (Int64.ofInt number)
  else none

/-- An integer written with the digits of a base. -/
def basedInteger? (base : Nat) (digits : List Char) : Option Int64 := do
  let plain ← ungroup (fun digit => (Text.digitValue? base digit).isSome) digits
  let number ← Text.digitsValue base 0 plain
  int64? number

/-- The integer that a whole text writes. -/
def integerOf? (text : List Char) : Option Int64 :=
  match text with
  | '0' :: 'x' :: digits => basedInteger? 16 digits
  | '0' :: 'o' :: digits => basedInteger? 8 digits
  | '0' :: 'b' :: digits => basedInteger? 2 digits
  | _ => do
      let (negative, rest) := readSign text
      let digits ← wholeDigits? rest
      let number ← Text.digitsValue 10 0 digits
      int64? (if negative then -(number : Int) else number)

/-! ## Floating-point numbers -/

/-- The exponent that a text writes. -/
def exponentOf? (text : List Char) : Option Int := do
  let (negative, rest) := readSign text
  let digits ← ungroup Char.isDigit rest
  let number ← Text.digitsValue 10 0 digits
  return if negative then -(number : Int) else number

/-- A floating-point number; one beyond the greatest is refused unless it is negative. -/
def finiteOrNegative? (number : Binary64) : Option Binary64 :=
  if number = .infinite false then none else some number

/-- The floating-point number that a whole text writes. -/
def floatOf? (text : List Char) : Option Binary64 :=
  let (negative, unsigned) := readSign text
  if unsigned = "inf".toList then some (.infinite negative)
  else if unsigned = "nan".toList then some .nan
  else do
    let isExponentMark := fun character => character == 'e' || character == 'E'
    let mantissa := unsigned.takeWhile (!isExponentMark ·)
    let marked := unsigned.dropWhile (!isExponentMark ·)
    let exponent ←
      match marked with
      | [] => some 0
      | _ :: exponentText => exponentOf? exponentText
    let whole ← wholeDigits? (mantissa.takeWhile (· != '.'))
    let pointed := mantissa.dropWhile (· != '.')
    let fraction ←
      match pointed with
      | [] => if marked.isEmpty then none else some []
      | _ :: fractionText => ungroup Char.isDigit fractionText
    let digits ← Text.digitsValue 10 0 (whole ++ fraction)
    finiteOrNegative? (Binary64.ofDecimal negative digits (exponent - fraction.length))

/-! ## Any plain scalar -/

/-- The value that a whole text writes. -/
def scalarOf? (text : List Char) : Option Value :=
  if text = "true".toList then some (.boolean true)
  else if text = "false".toList then some (.boolean false)
  else
    match DateTime.ofText? text with
    | some moment => some (.datetime moment)
    | none =>
        match floatOf? text with
        | some number => some (.float number)
        | none => (integerOf? text).map .integer

/-- Whether a whole text writes a date without a time. -/
def isPlainDate (text : List Char) : Bool :=
  match DateTime.ofText? text with
  | some (.localDate _) => true
  | _ => false

/-- Reads the time that may follow a date after a space. -/
def readSpacedTime (date : List Char) (rest : List Char) : List Char × List Char :=
  match rest with
  | ' ' :: next :: more =>
      if next.isDigit && isPlainDate date then
        (date ++ ' ' :: (next :: more).takeWhile isScalarCharacter,
          (next :: more).dropWhile isScalarCharacter)
      else (date, rest)
  | _ => (date, rest)

/-- Reads a plain scalar at the start of a text. -/
def readScalar? (text : List Char) : Option (Value × List Char) :=
  let (run, rest) := readSpacedTime (text.takeWhile isScalarCharacter)
    (text.dropWhile isScalarCharacter)
  (scalarOf? run).map fun value => (value, rest)

end StageManifest.Toml
