import StageManifest.Text.Digits

/-!
# Dates and times

The four kinds of dates and times that a TOML document can hold, their text and
its reading.  A date exists in the calendar; a time may name a leap second and
keeps nine digits of a second; an offset is below one day.
-/

set_option autoImplicit false

namespace StageManifest.Toml

/-- A day of the calendar. -/
structure Date where
  year : Nat
  month : Nat
  day : Nat
deriving DecidableEq, Repr

/-- A time of the day. -/
structure Time where
  hour : Nat
  minute : Nat
  second : Nat
  nanosecond : Nat
deriving DecidableEq, Repr

/-- How far a local time is from universal time. -/
inductive Offset where
  | universal
  /-- The given minutes ahead, or behind if they are negative. -/
  | minutes (ahead : Int)
deriving DecidableEq, Repr

/-- A date, a time, or both, with an offset or without. -/
inductive DateTime where
  | offsetDateTime (date : Date) (time : Time) (offset : Offset)
  | localDateTime (date : Date) (time : Time)
  | localDate (date : Date)
  | localTime (time : Time)
deriving DecidableEq, Repr

/-! ## Text -/

/-- The text of a date. -/
def Date.text (date : Date) : String :=
  Text.paddedDigits 10 4 date.year ++ "-" ++ Text.paddedDigits 10 2 date.month ++ "-" ++
    Text.paddedDigits 10 2 date.day

/-- The text of the nanoseconds of a time, without zeros at the end. -/
def fractionText (nanosecond : Nat) : String :=
  if nanosecond = 0 then ""
  else
    "." ++ String.ofList
      ((Text.zeroPadded 9 (Nat.toDigits 10 nanosecond)).reverse.dropWhile (· == '0')).reverse

/-- The text of a time. -/
def Time.text (time : Time) : String :=
  Text.paddedDigits 10 2 time.hour ++ ":" ++ Text.paddedDigits 10 2 time.minute ++ ":" ++
    Text.paddedDigits 10 2 time.second ++ fractionText time.nanosecond

/-- The text of an offset. -/
def Offset.text : Offset → String
  | .universal => "Z"
  | .minutes ahead =>
      (if ahead < 0 then "-" else "+") ++ Text.paddedDigits 10 2 (ahead.natAbs / 60) ++ ":" ++
        Text.paddedDigits 10 2 (ahead.natAbs % 60)

/-- The text of a date or time. -/
def DateTime.text : DateTime → String
  | .offsetDateTime date time offset => date.text ++ "T" ++ time.text ++ offset.text
  | .localDateTime date time => date.text ++ "T" ++ time.text
  | .localDate date => date.text
  | .localTime time => time.text

/-! ## Why a text is no date or time -/

/-- A part of the text of a date or time. -/
inductive DatePart where
  | date
  | dateTime
  | time
  | offset
deriving DecidableEq, Repr

/-- The name of a part. -/
def DatePart.name : DatePart → String
  | .date => "date"
  | .dateTime => "date-time"
  | .time => "time"
  | .offset => "offset"

/-- Why a text is no date or time. -/
structure DateFault where
  /-- The part at fault, if there is one rather than the whole. -/
  part : Option DatePart := none
  expected : Option String := none
deriving DecidableEq, Repr

/-- The message about a text that is no date or time. -/
def DateFault.message (fault : DateFault) : String :=
  "invalid " ++ (fault.part.map DatePart.name).getD "datetime" ++
    match fault.expected with
    | some expected => ", expected " ++ expected
    | none => ""

/-! ## Reading -/

/-- Reads decimal digits, of which there must be one at least. -/
def readDigits (part : Option DatePart) (expected : String) (text : List Char) :
    Except DateFault (List Char × List Char) :=
  let digits := text.takeWhile Char.isDigit
  if digits.isEmpty then .error ⟨part, some expected⟩
  else .ok (digits, text.dropWhile Char.isDigit)

/-- Reads a mark between numbers. -/
def readMark (part : DatePart) (mark : Char) (expected : String) :
    List Char → Except DateFault (List Char)
  | [] => .error ⟨some part, some expected⟩
  | first :: rest => if first = mark then .ok rest else .error ⟨some part, some expected⟩

/-- The number that a fixed count of digits writes. -/
def fixedNumber (part : DatePart) (count : Nat) (expected : String) (digits : List Char) :
    Except DateFault Nat :=
  if digits.length = count then .ok ((Text.digitsValue 10 0 digits).getD 0)
  else .error ⟨some part, some expected⟩

/-- Refuses what is not as expected. -/
def require (part : DatePart) (expected : String) (holds : Bool) : Except DateFault Unit :=
  if holds then .ok () else .error ⟨some part, some expected⟩

/-! ### Dates -/

/-- Whether a year has a leap day. -/
def isLeapYear (year : Nat) : Bool :=
  year % 4 == 0 && (year % 100 != 0 || year % 400 == 0)

/-- The number of days in a month. -/
def daysInMonth (year month : Nat) : Nat :=
  if month = 2 then (if isLeapYear year then 29 else 28)
  else if month = 4 || month = 6 || month = 9 || month = 11 then 30
  else 31

/-- Reads a date behind its year and the dash there. -/
def readDate (yearDigits text : List Char) : Except DateFault (Date × List Char) := do
  let (monthDigits, text) ← readDigits (some .date) "month" text
  let text ← readMark .date '-' "`-` (MM-DD)" text
  let (dayDigits, text) ← readDigits (some .date) "day" text
  let year ← fixedNumber .date 4 "a four-digit year (YYYY)" yearDigits
  let month ← fixedNumber .date 2 "a two-digit month (MM)" monthDigits
  let day ← fixedNumber .date 2 "a two-digit day (DD)" dayDigits
  require .date "month between 01 and 12" (1 ≤ month && month ≤ 12)
  let last := daysInMonth year month
  require .date ("day between 01 and " ++ Nat.repr last) (1 ≤ day && day ≤ last)
  return (⟨year, month, day⟩, text)

/-! ### Times -/

/-- The nanoseconds written by the digits of a fraction; digits behind the ninth do not count. -/
def nanosecondsOf (digits : List Char) : Nat :=
  let kept := digits.take 9
  (Text.digitsValue 10 0 kept).getD 0 * Nat.pow 10 (9 - kept.length)

/-- Reads the fraction of a second, if there is one. -/
def readFraction : List Char → Except DateFault (Nat × List Char)
  | '.' :: rest => do
      let (digits, rest) ← readDigits (some .time) "nanosecond" rest
      return (nanosecondsOf digits, rest)
  | rest => .ok (0, rest)

/-- Reads a time. -/
def readTime (text : List Char) : Except DateFault (Time × List Char) := do
  let (hourDigits, text) ← readDigits (some .time) "hour" text
  let text ← readMark .time ':' "`:` (HH:MM)" text
  let (minuteDigits, text) ← readDigits (some .time) "minute" text
  let text ← readMark .time ':' "`:` (MM:SS)" text
  let (secondDigits, text) ← readDigits (some .time) "second" text
  let (nanosecond, text) ← readFraction text
  let hour ← fixedNumber .time 2 "a two-digit hour (HH)" hourDigits
  let minute ← fixedNumber .time 2 "a two-digit minute (MM)" minuteDigits
  let second ← fixedNumber .time 2 "a two-digit second (SS)" secondDigits
  require .time "hour between 00 and 23" (hour ≤ 23)
  require .time "minute between 00 and 59" (minute ≤ 59)
  require .time "second between 00 and 60" (second ≤ 60)
  return (⟨hour, minute, second, nanosecond⟩, text)

/-! ### Offsets -/

/-- Reads the hours and minutes of an offset. -/
def readOffsetMinutes (text : List Char) : Except DateFault (Nat × List Char) := do
  let (hourDigits, text) ← readDigits (some .offset) "hour" text
  let text ← readMark .offset ':' "`:` (HH:MM)" text
  let (minuteDigits, text) ← readDigits (some .offset) "minute" text
  let hours ← fixedNumber .offset 2 "a two-digit hour (HH)" hourDigits
  let minutes ← fixedNumber .offset 2 "a two-digit minute (MM)" minuteDigits
  require .offset "hours between 00 and 23" (hours ≤ 23)
  require .offset "minutes between 00 and 59" (minutes ≤ 59)
  return (hours * 60 + minutes, text)

/-- Reads an offset, if there is any text. -/
def readOffset : List Char → Except DateFault (Option Offset × List Char)
  | [] => .ok (none, [])
  | sign :: rest =>
      if sign = 'Z' || sign = 'z' then .ok (some .universal, rest)
      else if sign = '+' || sign = '-' then do
        let (minutes, rest) ← readOffsetMinutes rest
        return (some (.minutes (if sign = '+' then minutes else -minutes)), rest)
      else .error ⟨some .offset, some "`Z`, +OFFSET, -OFFSET"⟩

/-! ### Whole texts -/

/-- What was read, if it was read to the end. -/
def atEnd {α : Type} (read : α) : List Char → Except DateFault α
  | [] => .ok read
  | _ :: _ => .error {}

/-- The date or time in a text behind its date. -/
def readAfterDate (date : Date) : List Char → Except DateFault DateTime
  | [] => .ok (.localDate date)
  | separator :: rest =>
      if separator = 'T' || separator = 't' || separator = ' ' then do
        let (time, rest) ← readTime rest
        let (offset, rest) ← readOffset rest
        match offset with
        | none => atEnd (.localDateTime date time) rest
        | some offset => atEnd (.offsetDateTime date time offset) rest
      else .error ⟨some .dateTime, some "`T` between date and time"⟩

/-- The date or time that a whole text writes. -/
def DateTime.read (text : List Char) : Except DateFault DateTime := do
  let (digits, rest) ← readDigits none "year or hour" text
  match rest with
  | '-' :: rest => do
      let (date, rest) ← readDate digits rest
      readAfterDate date rest
  | ':' :: _ => do
      let (time, rest) ← readTime text
      atEnd (.localTime time) rest
  | _ => .error ⟨none, some "`-` (YYYY-MM) or `:` (HH:MM)"⟩

/-- The date or time that a whole text writes, if it writes one. -/
def DateTime.ofText? (text : List Char) : Option DateTime :=
  (DateTime.read text).toOption

end StageManifest.Toml
