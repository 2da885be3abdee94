import Formula.Decimal
import Formula.Instant

/-! The written form of instants, `YYYY-MM-DDTHH:MM:SS.mmmZ`. -/

namespace Formula

inductive DateTimeError
  | malformed
  | month (month : Nat)
  | day (day month : Nat) (year : Int)
  | hour (hour : Nat)
  | minute (minute : Nat)
  | second (second : Nat)
  deriving DecidableEq, Repr

namespace DateTimeError

def twoDigits (n : Nat) : String := String.ofList (paddedDigits 2 n)

/-- At least four characters, the sign included. -/
def yearText (year : Int) : String :=
  if year < 0 then "-" ++ String.ofList (paddedDigits 3 year.natAbs)
  else String.ofList (paddedDigits 4 year.natAbs)

def message : DateTimeError → String
  | .malformed => "expected the form YYYY-MM-DDTHH:MM:SS.mmmZ"
  | .month m => s!"month {twoDigits m} is not between 01 and 12"
  | .day d m year =>
    s!"day {twoDigits d} does not exist in month {twoDigits m} of {yearText year} " ++
      s!"(it has {Calendar.daysInMonth year m} days)"
  | .hour h => s!"hour {twoDigits h} is not between 00 and 23"
  | .minute m => s!"minute {twoDigits m} is not between 00 and 59"
  | .second s => s!"second {twoDigits s} is not between 00 and 59"

end DateTimeError

namespace Timestamp

def readNumber (width : Nat) (text : List Char) : Option (Nat × List Char) :=
  let digits := text.take width
  if digits.length = width ∧ digits.all Char.isDigit then
    some (Nat.ofDigitChars 10 digits 0, text.drop width)
  else none

def readMark (mark : Char) : List Char → Option (List Char)
  | [] => none
  | c :: rest => if c = mark then some rest else none

/-- Reads the written form from the front of a text, whatever the numbers in it. -/
def read (text : List Char) : Option (Timestamp × List Char) := do
  let (year, text) ← readNumber 4 text
  let text ← readMark '-' text
  let (month, text) ← readNumber 2 text
  let text ← readMark '-' text
  let (day, text) ← readNumber 2 text
  let text ← readMark 'T' text
  let (hour, text) ← readNumber 2 text
  let text ← readMark ':' text
  let (minute, text) ← readNumber 2 text
  let text ← readMark ':' text
  let (second, text) ← readNumber 2 text
  let text ← readMark '.' text
  let (millisecond, text) ← readNumber 3 text
  let text ← readMark 'Z' text
  return ({ year, month, day, hour, minute, second, millisecond }, text)

def width : Nat := 24

/-- The instant of a timestamp that exists, else its first number that is out of place. -/
def check (t : Timestamp) : Except DateTimeError Instant :=
  if t.month = 0 ∨ 12 < t.month then .error (.month t.month)
  else if t.day = 0 ∨ Calendar.daysInMonth t.year t.month < t.day then
    .error (.day t.day t.month t.year)
  else if 23 < t.hour then .error (.hour t.hour)
  else if 59 < t.minute then .error (.minute t.minute)
  else if 59 < t.second then .error (.second t.second)
  else .ok t.instant

/-- Years of four digits stand alone, all others carry their sign. -/
def yearText (year : Int) : String :=
  let digits := String.ofList (paddedDigits 4 year.natAbs)
  if year < 0 then "-" ++ digits else if 9999 < year then "+" ++ digits else digits

def text (t : Timestamp) : String :=
  let field (width n : Nat) : String := String.ofList (paddedDigits width n)
  yearText t.year ++ "-" ++ field 2 t.month ++ "-" ++ field 2 t.day ++ "T" ++
    field 2 t.hour ++ ":" ++ field 2 t.minute ++ ":" ++ field 2 t.second ++ "." ++
    field 3 t.millisecond ++ "Z"

end Timestamp

namespace Instant

def ofText (text : String) : Except DateTimeError Instant :=
  match Timestamp.read text.toList with
  | some (t, []) => t.check
  | _ => .error .malformed

def text (i : Instant) : String := i.timestamp.text

end Instant

end Formula
