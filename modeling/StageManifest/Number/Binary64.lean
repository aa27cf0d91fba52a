/-!
# Binary floating-point numbers of 64 bits

A finite number is a sign, a significand and a power of two.  Decimals are
rounded to the nearest such number, a tie to the one with the even significand.
A number is written with the fewest decimal digits that lie nearer to it than
to its neighbours, always positionally and never with an exponent.

Everything is exact arithmetic on natural numbers.
-/

set_option autoImplicit false

namespace StageManifest

/-- A floating-point number. -/
inductive Binary64 where
  /-- A significand times a power of two, and a sign.  The significand is below 2^53 and the power
  at least -1074; it is -1074, or the significand is at least 2^52. -/
  | finite (negative : Bool) (significand : Nat) (power : Int)
  | infinite (negative : Bool)
  | nan
deriving DecidableEq, Repr

namespace Binary64

/-- The least power of two. -/
def leastPower : Int := -1074

/-- The greatest power of two. -/
def greatestPower : Int := 971

/-- The least significand of 53 binary digits. -/
def leastFull : Nat := 4503599627370496

/-! ## Rounding -/

/-- A quotient rounded to the nearest natural number, a tie to the even one. -/
def divideToEven (numerator denominator : Nat) : Nat :=
  let quotient := numerator / denominator
  let twice := 2 * (numerator % denominator)
  if twice < denominator || (twice == denominator && quotient % 2 == 0) then quotient
  else quotient + 1

/-- The numerator and denominator of a fraction divided by a power of two. -/
def scaleDown (numerator denominator : Nat) (power : Int) : Nat × Nat :=
  (numerator * Nat.pow 2 (-power).toNat, denominator * Nat.pow 2 power.toNat)

/-- The power of two at which the whole part of a positive fraction has 53 binary digits, or the
least power if that one is greater. -/
def powerFor (numerator denominator : Nat) : Int :=
  let guess : Int := (Nat.log2 numerator : Int) - (Nat.log2 denominator : Int) - 52
  let (top, bottom) := scaleDown numerator denominator guess
  max leastPower (if top / bottom < leastFull then guess - 1 else guess)

/-- The number nearest to a positive fraction. -/
def ofFraction (negative : Bool) (numerator denominator : Nat) : Binary64 :=
  let power := powerFor numerator denominator
  let (top, bottom) := scaleDown numerator denominator power
  let significand := divideToEven top bottom
  let (significand, power) :=
    if significand = 2 * leastFull then (leastFull, power + 1) else (significand, power)
  if power > greatestPower then .infinite negative else .finite negative significand power

/-- The number nearest to a decimal: an integer times a power of ten. -/
def ofDecimal (negative : Bool) (digits : Nat) (exponent : Int) : Binary64 :=
  let places : Int := (Nat.toDigits 10 digits).length
  if digits = 0 || places + exponent < -330 then .finite negative 0 leastPower
  else if places + exponent > 330 then .infinite negative
  else ofFraction negative (digits * Nat.pow 10 exponent.toNat) (Nat.pow 10 (-exponent).toNat)

/-! ## The fewest digits -/

/-- The reals that round to a number, in units of a quarter of its last binary digit. -/
structure Interval where
  middle : Nat
  least : Nat
  greatest : Nat
  closed : Bool

/-- The interval of a positive number. -/
def Interval.of (significand : Nat) (power : Int) : Interval :=
  let below := if significand = leastFull && power > leastPower then 1 else 2
  ⟨4 * significand, 4 * significand - below, 4 * significand + 2, significand % 2 == 0⟩

/-- Whether a fraction of the interval's unit lies in the interval. -/
def Interval.holds (interval : Interval) (numerator denominator : Nat) : Bool :=
  if interval.closed then
    interval.least * denominator ≤ numerator && numerator ≤ interval.greatest * denominator
  else
    interval.least * denominator < numerator && numerator < interval.greatest * denominator

/-- The multiple of a power of ten in the interval that is nearest to its middle, if there is one;
of two equally near the greater.  The interval's unit is two to the given power. -/
def nearestDecimal? (interval : Interval) (power : Int) (exponent : Int) : Option Nat :=
  -- one step of the decimal grid is `step / unit` of the interval's units
  let step := Nat.pow 10 exponent.toNat * Nat.pow 2 (-power).toNat
  let unit := Nat.pow 10 (-exponent).toNat * Nat.pow 2 power.toNat
  let lower := interval.middle * unit / step
  let upper := lower + 1
  let belowHolds := interval.holds (lower * step) unit
  let aboveHolds := interval.holds (upper * step) unit
  let belowGap := interval.middle * unit - lower * step
  let aboveGap := upper * step - interval.middle * unit
  if belowHolds && aboveHolds then some (if belowGap < aboveGap then lower else upper)
  else if belowHolds then some lower
  else if aboveHolds then some upper
  else none

/-- The power of ten of the first digit of a positive number, counted from one before the point. -/
def decimalPlaces (significand : Nat) (power : Int) : Int :=
  let numerator := significand * Nat.pow 2 power.toNat
  let denominator := Nat.pow 2 (-power).toNat
  if denominator ≤ numerator then (Nat.toDigits 10 (numerator / denominator)).length
  else
    -- the first of the places behind the point that is not zero
    1 - (Nat.toDigits 10 ((denominator - 1) / numerator)).length

/-- Tries one more digit after another. -/
def fewestDigits (interval : Interval) (power : Int) (places : Int) :
    (tries : Nat) → (digits : Nat) → Nat × Int
  | 0, digits => ((nearestDecimal? interval power (places - digits)).getD 0, places - digits)
  | tries + 1, digits =>
      match nearestDecimal? interval power (places - digits) with
      | some decimal => (decimal, places - digits)
      | none => fewestDigits interval power places tries (digits + 1)

/-- The decimal with the fewest digits that rounds to a positive number: an integer and the power
of ten it is multiplied with. -/
def shortestDecimal (significand : Nat) (power : Int) : Nat × Int :=
  fewestDigits (Interval.of significand power) (power - 2) (decimalPlaces significand power) 17 1

/-! ## Text -/

/-- An integer times a power of ten in positional notation. -/
def positional (decimal : Nat) (exponent : Int) : List Char :=
  let digits := Nat.toDigits 10 decimal
  if 0 ≤ exponent then digits ++ List.replicate exponent.toNat '0'
  else
    let behind := (-exponent).toNat
    let padded := List.replicate (behind + 1 - digits.length) '0' ++ digits
    let whole := padded.length - behind
    let fraction := (padded.drop whole).reverse.dropWhile (· == '0') |>.reverse
    if fraction.isEmpty then padded.take whole
    else padded.take whole ++ '.' :: fraction

/-- The text of a finite number; a whole one has a zero behind its point. -/
def finiteText (negative : Bool) (significand : Nat) (power : Int) : String :=
  let digits :=
    if significand = 0 then ['0']
    else
      let (decimal, exponent) := shortestDecimal significand power
      positional decimal exponent
  let pointed := if digits.contains '.' then digits else digits ++ ['.', '0']
  String.ofList (if negative then '-' :: pointed else pointed)

/-- The text of a number, with the given text for what is not a number. -/
def text (nanText : String) : Binary64 → String
  | .finite negative significand power => finiteText negative significand power
  | .infinite negative => if negative then "-inf" else "inf"
  | .nan => nanText

end Binary64

end StageManifest
